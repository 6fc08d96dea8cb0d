import Workctx.Ingestion.Calls

/-! The evidence of every manifest is where it was registered or where it is preserved, in every
run whose moves leave the files of other manifests to them. -/

namespace Workctx.Ingestion
open Workctx.Concurrent Workctx.Text Workctx.Domain Workctx.Staging Workctx.Engine Workctx.Services List

section
variable (site : Site) (format : ManifestFormat)

/-- The files of a manifest: each with its hash, and with where it is preserved. -/
def ArtifactManifest.entries (manifest : ArtifactManifest) : List ((String × String) × String) :=
  manifest.sources.zip manifest.destinations

def HashedAt (files : Files) (path contentHash : String) : Prop := (files.get path).map (hashBytes site) = some contentHash

/-- The bytes of a file are at its registered path or at its preserved path. -/
def Held (files : Files) (entry : (String × String) × String) : Prop :=
  HashedAt site files entry.1.1 entry.1.2 ∨ HashedAt site files entry.2 entry.1.2

/-- The bytes of every file of every manifest are at one of its paths. -/
def Preserved (files : Files) : Prop :=
  ∀ path manifest, manifestAt format files path = some manifest → ∀ entry ∈ manifest.entries, Held site files entry

/-- Outside of the manifest directory no content is replaced by another one. -/
def Untouched (before after : Files) : Prop :=
  ∀ path content, inManifests path = false → before.get path = some content → after.get path = some content ∨ after.get path = none

/-- The steps of the runs in question: where one stores a manifest its files still are as they were
scanned, and where one moves a file every other manifest that points to it has its bytes where it
preserves them. -/
def MovesOwn (note : Note) (before _ : IngestionWorld) : Prop :=
  match note with
  | .applies (some manifest) _ => before.files.get (manifestPath manifest.id) = none →
      ∀ source ∈ manifest.sources, HashedAt site before.files source.1 source.2
  | .moves _ spec => specState site before.files spec = .pending →
      ∀ path manifest, manifestAt format before.files path = some manifest →
        ∀ entry ∈ manifest.entries, entry.1.1 = spec.source →
          entry.2 = spec.destination ∨ (entry.2 ≠ spec.source ∧ HashedAt site before.files entry.2 entry.1.2)
  | _ => True

/-- The manifests are well formed, and their evidence is preserved. -/
structure Kept (files : Files) : Prop where
  formed : AllFormed format files
  preserved : Preserved site format files

end

section
variable {site : Site} {format : ManifestFormat} {files after : Files} {manifest : ArtifactManifest}

theorem mem_zip_map {α β : Type} {f : α → β} {values : List α} {entry : α × β} :
    entry ∈ values.zip (values.map f) ↔ entry.1 ∈ values ∧ entry.2 = f entry.1 := by
  rw [← map_prod_left_eq_zip, mem_map]
  constructor
  · rintro ⟨value, there, rfl⟩
    exact ⟨there, rfl⟩
  · rintro ⟨there, same⟩
    exact ⟨entry.1, there, Prod.ext rfl same.symm⟩

theorem sources_paths {metadata : ManifestMetadata} (notes : manifest.notes = some metadata) :
    manifest.sources.map Prod.fst = metadata.paths := by
  unfold ArtifactManifest.sources ManifestMetadata.paths
  rw [notes]
  simp [Function.comp_def]

theorem sources_none (notes : manifest.notes = none) : manifest.sources = [] := by
  unfold ArtifactManifest.sources
  rw [notes]

/-- The file of an entry is a raw one, preserved where it is or where files are preserved. -/
structure Placed (entry : (String × String) × String) : Prop where
  raw : isRawPath entry.1.1 = true
  preserved : entry.2 = entry.1.1 ∨ Preserving entry.2

variable {entry : (String × String) × String} {path : String} {content : Bytes}

theorem ArtifactManifest.Formed.placed (formed : manifest.Formed)
    (member : entry ∈ manifest.entries) : Placed entry := by
  unfold ArtifactManifest.entries at member
  cases notes : manifest.notes with
  | none =>
    rw [sources_none notes, zip_nil_left] at member
    cases member
  | some metadata =>
    obtain ⟨raw, places⟩ := formed metadata notes
    obtain ⟨source, destination⟩ := of_mem_zip (show (entry.1, entry.2) ∈ _ from member)
    have there : entry.1.1 ∈ metadata.paths := by
      rw [← sources_paths notes]
      exact mem_map_of_mem source
    refine ⟨raw _ there, ?_⟩
    by_cases final : manifest.status = .quarantined ∨ manifest.status = .processed
    · exact .inr (formed.preserving notes final _ destination)
    · left
      have open_ : manifest.places metadata = metadata.paths := by
        unfold ArtifactManifest.places
        split
        · next quarantined => exact absurd (.inl quarantined) final
        · next processed => exact absurd (.inr processed) final
        · rfl
      rw [places, open_, ← sources_paths notes] at member
      exact (mem_zip_map.mp member).2

theorem Placed.source_outside (placed : Placed entry) : inManifests entry.1.1 = false :=
  rawPath_outside placed.raw

theorem Placed.destination_outside (placed : Placed entry) : inManifests entry.2 = false := by
  rcases placed.preserved with same | preserving
  · rw [same]
    exact placed.source_outside
  · exact preserving.outside

theorem HashedAt.congr {contentHash : String} (hashed : HashedAt site files path contentHash)
    (same : after.get path = files.get path) : HashedAt site after path contentHash := by
  unfold HashedAt
  rw [same]
  exact hashed

theorem Held.congr (held : Held site files entry) (placed : Placed entry)
    (same : ∀ path, inManifests path = false → after.get path = files.get path) : Held site after entry := by
  rcases held with source | destination
  · exact .inl (source.congr (same _ placed.source_outside))
  · exact .inr (destination.congr (same _ placed.destination_outside))

theorem put_outside {other : String} (directory : inManifests path = true) (outside : inManifests other = false) :
    (files.put path content).get other = files.get other := by
  apply Directory.get_put_of_ne
  rintro rfl
  rw [directory] at outside
  cases outside

theorem Untouched.put (directory : inManifests path = true) : Untouched files (files.put path content) := by
  intro other old outside found
  left
  rw [put_outside directory outside]
  exact found

/-! The steps. -/

theorem Preserved.created (kept : Kept site format files) (absent : files.get path = none)
    (directory : inManifests path = true) (formed : manifest.Formed)
    (scanned : ∀ source ∈ manifest.sources, HashedAt site files source.1 source.2) :
    Preserved site format (files.put path (format.render manifest)) := by
  obtain ⟨_, backward⟩ := @manifests_created format files path manifest absent
  intro other now found entry member
  rcases backward other now found with ⟨rfl, rfl⟩ | there
  · have held : Held site files entry := .inl (scanned _ (of_mem_zip (show (entry.1, entry.2) ∈ _ from member)).1)
    exact held.congr (formed.placed member) fun _ => put_outside directory
  · exact (kept.preserved other now there entry member).congr ((kept.formed other now there).placed member)
      fun _ => put_outside directory

theorem destinations_same {one two : ArtifactManifest} (first : one.Formed) (second : two.Formed) (id : two.id = one.id)
    (sources : two.sources = one.sources) (status : two.status = one.status) : two.entries = one.entries := by
  unfold ArtifactManifest.entries
  rw [sources]
  cases oneNotes : one.notes with
  | none => rw [sources_none oneNotes, zip_nil_left, zip_nil_left]
  | some metadata =>
    cases twoNotes : two.notes with
    | none =>
      rw [sources_none twoNotes] at sources
      rw [← sources, zip_nil_left, zip_nil_left]
    | some other =>
      have pairs := sources
      unfold ArtifactManifest.sources at pairs
      rw [oneNotes, twoNotes] at pairs
      simp only [List.cons.injEq, Prod.mk.injEq] at pairs
      obtain ⟨⟨registered, _⟩, sidecars⟩ := pairs
      have injective : Function.Injective fun sidecar : SidecarMetadata => (sidecar.sourcePath, sidecar.contentHash) := by
        intro a b same
        cases a
        cases b
        simpa using same
      have equal := map_injective_iff.mpr injective sidecars
      have places : two.places other = one.places metadata := by
        unfold ArtifactManifest.places destinationsIn ManifestMetadata.paths
        rw [status, id, registered, equal]
      rw [(second other twoNotes).2, (first metadata oneNotes).2, places]

theorem Evolves.held {old new : ArtifactManifest} (evolves : Evolves old new) (first : old.Formed) (second : new.Formed)
    (held : ∀ entry ∈ old.entries, Held site files entry) : ∀ entry ∈ new.entries, Held site files entry := by
  rcases evolves.status with same | ⟨early, late⟩
  · rw [destinations_same first second evolves.id evolves.sources same]
    exact held
  · intro entry member
    left
    obtain ⟨source, _⟩ := of_mem_zip (show (entry.1, entry.2) ∈ _ from member)
    rw [evolves.sources] at source
    cases notes : old.notes with
    | none =>
      rw [sources_none notes] at source
      cases source
    | some metadata =>
      have places : old.destinations = old.sources.map Prod.fst := by
        rw [(first metadata notes).2, sources_paths notes, ArtifactManifest.places]
        rcases early with pending | processing
        · rw [pending]
        · rw [processing]
      have paired : (entry.1, entry.1.1) ∈ old.entries := by
        unfold ArtifactManifest.entries
        rw [places, mem_zip_map]
        exact ⟨source, rfl⟩
      rcases held _ paired with there | there
      · exact there
      · exact there

theorem Preserved.revised {current : ArtifactManifest} (kept : Kept site format files)
    (there : isManifestFile path = true → manifestAt format files path = some current ∧ Evolves current manifest)
    (directory : inManifests path = true) (formed : manifest.Formed) :
    Preserved site format (files.put path (format.render manifest)) := by
  obtain ⟨_, retains⟩ := manifests_revised there formed
  intro other now found entry member
  obtain ⟨was, before, evolves, keeps⟩ := retains other now found
  have first := kept.formed other was before
  have held := evolves.held first (keeps first) (kept.preserved other was before) entry member
  exact held.congr ((keeps first).placed member) fun _ => put_outside directory

theorem Preserved.moved {spec : MoveSpec} (kept : Kept site format files)
    (carried : Carried site spec content files after)
    (own : ∀ path manifest, manifestAt format files path = some manifest → ∀ entry ∈ manifest.entries, entry.1.1 = spec.source →
      entry.2 = spec.destination ∨ (entry.2 ≠ spec.source ∧ HashedAt site files entry.2 entry.1.2)) :
    Preserved site format after := by
  obtain ⟨hash, free⟩ : HashedAt site files spec.source spec.contentHash ∧ files.get spec.destination = none := by
    have pending := carried.pending
    unfold specState at pending
    dsimp only at pending
    split at pending
    · next both => exact ⟨both.1, Option.map_eq_none_iff.mp both.2⟩
    · split at pending
      · cases pending
      · cases pending
  have there : after.get spec.destination = files.get spec.source := by
    rw [carried.files, Directory.get_put_self, carried.source]
  have elsewhere : ∀ path, path ≠ spec.source → path ≠ spec.destination → after.get path = files.get path := by
    intro path fromSource fromDestination
    rw [carried.files, Directory.get_put_of_ne fromDestination, Directory.get_erase_of_ne fromSource]
  have notThere : ∀ contentHash, ¬HashedAt site files spec.destination contentHash := by
    intro contentHash hashed
    unfold HashedAt at hashed
    rw [free] at hashed
    cases hashed
  intro path now found entry member
  rw [carried.manifestAt] at found
  have placed := (kept.formed path now found).placed member
  by_cases moved : entry.1.1 = spec.source
  · right
    rcases own path now found entry member moved with same | ⟨apart, hashed⟩
    · rcases kept.preserved path now found entry member with source | destination
      · rw [moved] at source
        unfold HashedAt
        rw [same, there]
        exact source
      · rw [same] at destination
        exact absurd destination (notThere _)
    · have stays : entry.2 ≠ spec.destination := by
        intro same
        rw [same] at hashed
        exact notThere _ hashed
      exact hashed.congr (elsewhere _ apart stays)
  · rcases kept.preserved path now found entry member with source | destination
    · left
      have stays : entry.1.1 ≠ spec.destination := by
        intro same
        rw [same] at source
        exact notThere _ source
      exact source.congr (elsewhere _ moved stays)
    · right
      have stays : entry.2 ≠ spec.destination := by
        intro same
        rw [same] at destination
        exact notThere _ destination
      have apart : entry.2 ≠ spec.source := by
        rcases placed.preserved with same | preserving
        · rw [same]
          exact moved
        · intro same
          have raw := carried.raw
          rw [← same, preserving.notRaw] at raw
          cases raw
      exact destination.congr (elsewhere _ apart stays)

theorem Untouched.moved {spec : MoveSpec} (carried : Carried site spec content files after) :
    Untouched files after := by
  have free : files.get spec.destination = none := by
    have pending := carried.pending
    unfold specState at pending
    dsimp only at pending
    split at pending
    · next both => exact Option.map_eq_none_iff.mp both.2
    · split at pending
      · cases pending
      · cases pending
  intro path old _ found
  rw [carried.files]
  by_cases source : path = spec.source
  · right
    subst source
    have apart : spec.source ≠ spec.destination := by
      intro same
      rw [same, free] at found
      cases found
    rw [Directory.get_put_of_ne apart, Directory.get_erase_self]
  · left
    have apart : path ≠ spec.destination := by
      rintro rfl
      rw [free] at found
      cases found
    rw [Directory.get_put_of_ne apart, Directory.get_erase_of_ne source]
    exact found

def preservation (site : Site) (format : ManifestFormat) : Discipline IngestionWorld Note where
  allowed := MovesOwn site format
  sound world := Kept site format world.files
  step before after := Kept site format before.files →
    Grows format before.files after.files ∧ Kept site format after.files ∧ Untouched before.files after.files
  stays before after := Kept site format before.files → Grows format before.files after.files ∧ Kept site format after.files
  still _ kept := ⟨grows_refl, kept, fun _ _ _ found => .inl found⟩
  related step kept := ⟨(step kept).1, (step kept).2.1⟩
  trans first second kept := ⟨(first kept).1.trans (second (first kept).2).1, (second (first kept).2).2⟩
  kept stays kept := (stays kept).2

theorem preservation_absorbs : Absorbs site format (preservation site format) where
  formed kept found := kept.formed _ _ found
  grows kept stays := (stays kept).1
  quiet same _ kept := by
    rw [same]
    exact ⟨grows_refl, kept, fun _ _ _ found => .inl found⟩
  creates := by
    intro before after manifest proposal kept decided absent changed _ allowed _
    rw [changed]
    have directory := manifestPath_inManifests manifest.id
    exact ⟨(manifests_created absent).1, ⟨kept.formed.created absent decided.formed,
      Preserved.created kept absent directory decided.formed (allowed absent)⟩, Untouched.put directory⟩
  revises kept there directory formed changed _ _ := by
    rw [changed]
    obtain ⟨grows, retains⟩ := manifests_revised there formed
    exact ⟨grows, ⟨kept.formed.retained retains, Preserved.revised kept there directory formed⟩, Untouched.put directory⟩
  moves kept carried _ allowed _ := by
    obtain ⟨grows, retains⟩ := manifests_same (@Carried.manifestAt site format _ _ _ _ carried)
    exact ⟨grows, ⟨kept.formed.retained retains, Preserved.moved kept carried (allowed carried.pending)⟩, Untouched.moved carried⟩

end

def movesTest (site : Site) (format : ManifestFormat) (note : Note) (before _ : IngestionWorld) : Bool :=
  match note with
  | .applies (some manifest) _ => manifest.sources.all fun source =>
    (before.files.get source.1).map (hashBytes site) == some source.2
  | .moves _ spec => before.files.all fun file =>
    match manifestAt format before.files file.1 with
    | none => true
    | some manifest => manifest.entries.all fun entry =>
      entry.1.1 != spec.source || entry.2 == spec.destination ||
        (entry.2 != spec.source && (before.files.get entry.2).map (hashBytes site) == some entry.1.2)
  | _ => true

theorem movesOwn_of_test {site : Site} {format : ManifestFormat} (note : Note) (before after : IngestionWorld)
    (passed : movesTest site format note before after = true) : MovesOwn site format note before after := by
  cases note with
  | plain => trivial
  | applies created proposal =>
    cases created with
    | none => trivial
    | some manifest =>
      intro _ source member
      exact beq_iff_eq.mp (all_eq_true.mp passed source member)
  | moves artifactId spec =>
    intro _ path manifest found entry member moved
    obtain ⟨content, present⟩ := file_of_manifestAt found
    have file := all_eq_true.mp passed (path, content) (Directory.mem_of_get present)
    dsimp only at file
    rw [found] at file
    have tested := all_eq_true.mp file entry member
    rw [moved] at tested
    simp only [bne_self_eq_false, Bool.false_or, Bool.or_eq_true, beq_iff_eq, Bool.and_eq_true, bne_iff_ne] at tested
    exact tested

/-- The file is registered alone and with a sidecar, and its first registration is archived. -/
def evidenceCalls : Nat → Call
  | 0 => .register (sampleRequest (rawPath "a") []) (sampleDraws "t0x")
  | 1 => .register (sampleRequest (rawPath "a") [rawPath "s"]) (sampleDraws "t1x")
  | _ => .archiveAfter "ART-20260101-a-01" "TXP-20260101T000000Z-register-20260101-a-01-t0x3" (sampleDraws "t2x")

def evidenceInbox : IngestionWorld := sampleInbox [("a", "A"), ("s", "S")]

def evidenceRun (schedule : List Nat) : IngestionWorld :=
  ((callPool sampleSite sampleFormat evidenceCalls evidenceInbox).run schedule).state

end Workctx.Ingestion
