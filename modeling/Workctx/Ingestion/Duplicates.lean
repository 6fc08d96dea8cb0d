import Workctx.Ingestion.Calls

/-! In every interleaving of calls the detection of duplicates is exact and flat, if no manifest is
stored on a decision that another call has overtaken, and none links to a duplicate. -/

namespace Workctx.Ingestion
open Workctx.Concurrent Workctx.Text Workctx.Domain Workctx.Staging Workctx.Engine Workctx.Services

section
variable (format : ManifestFormat)

def ArtifactManifest.Original (manifest : ArtifactManifest) : Prop :=
  manifest.status ≠ .duplicate ∧ manifest.status ≠ .quarantined

/-- No content has two originals, and a duplicate links to a manifest of its content that is none. -/
structure Exact (files : Files) : Prop where
  single : ∀ one two first second, manifestAt format files one = some first → manifestAt format files two = some second →
    first.Original → second.Original → first.contentHash = second.contentHash → one = two
  flat : ∀ path manifest original, manifestAt format files path = some manifest → manifest.duplicateOf = some original →
    ∃ other named, manifestAt format files other = some named ∧ named.id = original ∧ named.status ≠ .duplicate ∧
      named.contentHash = manifest.contentHash

def Stores (manifest : ArtifactManifest) (before after : IngestionWorld) : Prop :=
  before.files.get (manifestPath manifest.id) = none ∧
    after.files.get (manifestPath manifest.id) = some (format.render manifest)

/-- The steps of the runs in question: where one stores a pending manifest there is no original of
its content yet, and where one stores a duplicate it does not name a duplicate. -/
def Careful (note : Note) (before after : IngestionWorld) : Prop :=
  ∀ manifest proposal, note = .applies (some manifest) proposal → Stores format manifest before after →
    (manifest.status = .pending → ∀ path other, manifestAt format before.files path = some other → other.Original →
      other.contentHash ≠ manifest.contentHash) ∧
    ∀ original, manifest.duplicateOf = some original → ∀ path other, manifestAt format before.files path = some other →
      other.id = original → other.status ≠ .duplicate

/-- The manifests are well formed, and the detection of duplicates is exact. -/
structure Detected (files : Files) : Prop where
  formed : AllFormed format files
  exact : Exact format files

end

section
variable {site : Site} {format : ManifestFormat} {files after : Files} {manifest : ArtifactManifest}

theorem Evolves.original_iff {old new : ArtifactManifest} (evolves : Evolves old new) : new.Original ↔ old.Original := by
  unfold ArtifactManifest.Original
  rw [Ne, Ne, Ne, Ne, evolves.original _ (.inl rfl), evolves.original _ (.inr rfl)]

theorem Exact.retained (exact : Exact format files) (grows : Grows format files after) (retains : Retains format files after) :
    Exact format after := by
  constructor
  · intro one two first second firstAt secondAt firstOriginal secondOriginal hash
    obtain ⟨firstWas, firstThere, firstEvolves, _⟩ := retains one first firstAt
    obtain ⟨secondWas, secondThere, secondEvolves, _⟩ := retains two second secondAt
    apply exact.single one two firstWas secondWas firstThere secondThere
    · exact firstEvolves.original_iff.mp firstOriginal
    · exact secondEvolves.original_iff.mp secondOriginal
    · rw [← firstEvolves.contentHash, ← secondEvolves.contentHash, hash]
  · intro path now original found duplicate
    obtain ⟨was, there, evolves, _⟩ := retains path now found
    rw [evolves.duplicateOf] at duplicate
    obtain ⟨place, named, namedAt, id, status, hash⟩ := exact.flat path was original there duplicate
    obtain ⟨current, currentAt, later⟩ := grows place named namedAt
    refine ⟨place, current, currentAt, later.id.trans id, ?_, ?_⟩
    · rw [Ne, later.original _ (.inl rfl)]
      exact status
    · rw [later.contentHash, hash, evolves.contentHash]

theorem Exact.created (exact : Exact format files) (decided : Decided format files manifest)
    (absent : files.get (manifestPath manifest.id) = none)
    (fresh : manifest.status = .pending → ∀ path other, manifestAt format files path = some other → other.Original →
      other.contentHash ≠ manifest.contentHash)
    (flat : ∀ original, manifest.duplicateOf = some original → ∀ path other, manifestAt format files path = some other →
      other.id = original → other.status ≠ .duplicate) :
    Exact format (files.put (manifestPath manifest.id) (format.render manifest)) := by
  obtain ⟨grows, backward⟩ := @manifests_created format files _ manifest absent
  -- Whatever was named before is still named, as what it has evolved to.
  have still : ∀ place named original hash, manifestAt format files place = some named → named.id = original →
      named.status ≠ .duplicate → named.contentHash = hash → ∃ other current,
        manifestAt format (files.put (manifestPath manifest.id) (format.render manifest)) other = some current ∧
          current.id = original ∧ current.status ≠ .duplicate ∧ current.contentHash = hash := by
    intro place named original hash namedAt id status content
    obtain ⟨current, currentAt, later⟩ := grows place named namedAt
    refine ⟨place, current, currentAt, later.id.trans id, ?_, later.contentHash.trans content⟩
    rw [Ne, later.original _ (.inl rfl)]
    exact status
  constructor
  · intro one two first second firstAt secondAt firstOriginal secondOriginal hash
    rcases backward one first firstAt with ⟨rfl, rfl⟩ | firstThere
    · rcases backward two second secondAt with ⟨rfl, rfl⟩ | secondThere
      · rfl
      · have pending := decided.original firstOriginal.1 firstOriginal.2
        exact absurd hash.symm (fresh pending two second secondThere secondOriginal)
    · rcases backward two second secondAt with ⟨rfl, rfl⟩ | secondThere
      · have pending := decided.original secondOriginal.1 secondOriginal.2
        exact absurd hash (fresh pending one first firstThere firstOriginal)
      · exact exact.single one two first second firstThere secondThere firstOriginal secondOriginal hash
  · intro path now original found duplicate
    rcases backward path now found with ⟨rfl, rfl⟩ | there
    · obtain ⟨place, named, namedAt, id, hash⟩ := decided.linked original duplicate
      exact still place named original _ namedAt id (flat original duplicate place named namedAt id) hash
    · obtain ⟨place, named, namedAt, id, status, hash⟩ := exact.flat path now original there duplicate
      exact still place named original _ namedAt id status hash

/-- The discipline under which duplicates are detected. -/
def detection (format : ManifestFormat) : Discipline IngestionWorld Note where
  allowed := Careful format
  sound world := Detected format world.files
  step before after := Detected format before.files → Grows format before.files after.files ∧ Detected format after.files
  stays before after := Detected format before.files → Grows format before.files after.files ∧ Detected format after.files
  still _ detected := ⟨grows_refl, detected⟩
  related step := step
  trans first second detected :=
    ⟨(first detected).1.trans (second (first detected).2).1, (second (first detected).2).2⟩
  kept stays detected := (stays detected).2

theorem Detected.retained (detected : Detected format files) (grows : Grows format files after) (retains : Retains format files after) :
    Detected format after := ⟨detected.formed.retained retains, detected.exact.retained grows retains⟩

theorem detection_absorbs : Absorbs site format (detection format) where
  formed detected found := detected.formed _ _ found
  grows detected stays := (stays detected).1
  quiet same _ detected := by
    rw [same]
    exact ⟨grows_refl, detected⟩
  creates detected decided absent changed _ allowed _ := by
    obtain ⟨fresh, flat⟩ := allowed _ _ rfl ⟨absent, by rw [changed, Directory.get_put_self]⟩
    rw [changed]
    exact ⟨(manifests_created absent).1, detected.formed.created absent decided.formed,
      detected.exact.created decided absent fresh flat⟩
  revises detected there _ formed changed _ _ := by
    rw [changed]
    obtain ⟨grows, retains⟩ := manifests_revised there formed
    exact ⟨grows, detected.retained grows retains⟩
  moves detected carried _ _ _ := by
    obtain ⟨grows, retains⟩ := manifests_same (@Carried.manifestAt site format _ _ _ _ carried)
    exact ⟨grows, detected.retained grows retains⟩

end

def carefulTest (format : ManifestFormat) (note : Note) (before _ : IngestionWorld) : Bool :=
  match note with
  | .applies (some manifest) _ => before.files.all fun entry =>
    match manifestAt format before.files entry.1 with
    | none => true
    | some other =>
      (manifest.status != .pending || other.status == .duplicate || other.status == .quarantined ||
          other.contentHash != manifest.contentHash) &&
        (manifest.duplicateOf != some other.id || other.status != .duplicate)
  | _ => true

theorem careful_of_test {format : ManifestFormat} (note : Note) (before after : IngestionWorld)
    (passed : carefulTest format note before after = true) : Careful format note before after := by
  rintro manifest proposal rfl _
  have tested : ∀ path other, manifestAt format before.files path = some other →
      (manifest.status ≠ .pending ∨ other.status = .duplicate ∨ other.status = .quarantined ∨
          other.contentHash ≠ manifest.contentHash) ∧
        (manifest.duplicateOf ≠ some other.id ∨ other.status ≠ .duplicate) := by
    intro path other found
    obtain ⟨content, present⟩ := file_of_manifestAt found
    have entry := List.all_eq_true.mp passed (path, content) (Directory.mem_of_get present)
    dsimp only at entry
    rw [found] at entry
    simpa [or_assoc] using entry
  constructor
  · intro pending path other found original same
    rcases (tested path other found).1 with open_ | duplicate | quarantined | differs
    · exact open_ pending
    · exact original.1 duplicate
    · exact original.2 quarantined
    · exact differs same
  · intro original duplicate path other found named status
    rcases (tested path other found).2 with differs | flat
    · rw [named] at differs
      exact differs duplicate
    · exact flat status

/-- Each of the names is registered, with a link to a duplicate. -/
def sampleCalls (names : List String) (i : Nat) : Call :=
  .register (sampleRequest (rawPath (names.getD i "a")) []) (sampleDraws ("t" ++ toString i ++ "x"))

def sampleDuplicates : IngestionWorld := sampleInbox [("a", "A"), ("b", "A"), ("c", "A")]

def duplicatesRun (names : List String) (schedule : List Nat) : IngestionWorld :=
  ((callPool sampleSite sampleFormat (sampleCalls names) sampleDuplicates).run schedule).state

/-- What the detection of duplicates says of the manifest at a path. -/
def detectedAt (files : Files) (path : String) : Option (String × String × ArtifactStatus × Option String) :=
  (manifestAt sampleFormat files path).map fun manifest =>
    (manifest.id, manifest.contentHash, manifest.status, manifest.duplicateOf)

/-- What the detection of duplicates says of the manifests. -/
def report (files : Files) : List (String × String × String × ArtifactStatus × Option String) :=
  files.filterMap fun entry => (detectedAt files entry.1).map fun found => (entry.1, found)

theorem mem_report {files : Files} {path : String} {manifest : ArtifactManifest} (found : manifestAt sampleFormat files path = some manifest) :
    (path, manifest.id, manifest.contentHash, manifest.status, manifest.duplicateOf) ∈ report files := by
  obtain ⟨content, present⟩ := file_of_manifestAt found
  apply List.mem_filterMap.mpr
  refine ⟨(path, content), Directory.mem_of_get present, ?_⟩
  unfold detectedAt
  rw [found]
  rfl

theorem report_at {files : Files} {path : String} {found : String × String × ArtifactStatus × Option String}
    (member : (path, found) ∈ report files) : detectedAt files path = some found := by
  obtain ⟨entry, _, detected⟩ := List.mem_filterMap.mp member
  obtain ⟨there, here, same⟩ := Option.map_eq_some_iff.mp detected
  cases same
  exact here

def manifestOf (name : String) : String := "00_inbox/manifests/ART-20260101-" ++ name ++ "-01.json"

/-- Two registrations that both read the records first make two originals of one content. -/
def overtaken : IngestionWorld := duplicatesRun ["a", "b"] [0, 0, 0, 1, 1, 1, 0, 0, 1, 1]

/-- Three registrations one behind the other: the last one links to the second, a duplicate. -/
def chained : IngestionWorld := duplicatesRun ["b", "a", "c"] (List.replicate 5 0 ++ List.replicate 6 1 ++ List.replicate 7 2)

end Workctx.Ingestion
