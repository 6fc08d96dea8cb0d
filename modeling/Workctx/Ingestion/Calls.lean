import Workctx.Concurrent.Discipline
import Workctx.Ingestion.Manifests

/-! What the calls of the ingestion service do to the manifests and the files they point to: every
step leaves the files alone, stores a new manifest, revises one, or moves one file. A discipline
that absorbs these steps is kept by every call. -/

namespace Workctx.Ingestion
open Workctx.Concurrent Workctx.Text Workctx.Domain Workctx.Staging Workctx.Engine Workctx.Services List

section
variable (site : Site) (format : ManifestFormat)

structure Decided (files : Files) (manifest : ArtifactManifest) : Prop where
  formed : manifest.Formed
  original : manifest.status ≠ .duplicate → manifest.status ≠ .quarantined → manifest.status = .pending
  linked : ∀ original, manifest.duplicateOf = some original →
    ∃ path other, manifestAt format files path = some other ∧ other.id = original ∧ other.contentHash = manifest.contentHash

/-- A manifest that has evolved from this one is where this one is written. -/
def Found (path : String) (manifest : ArtifactManifest) (state : IngestionWorld) : Prop :=
  isManifestFile path = true → ∃ current, manifestAt format state.files path = some current ∧ Evolves manifest current

/-- A file of an artifact is carried from the raw zone to where it is preserved. -/
structure Carried (spec : MoveSpec) (content : Bytes) (before after : Files) : Prop where
  raw : isRawPath spec.source = true
  preserving : Preserving spec.destination
  pending : specState site before spec = .pending
  source : before.get spec.source = some content
  files : after = (before.erase spec.source).put spec.destination content

structure Absorbs (discipline : Discipline IngestionWorld Note) : Prop where
  formed : ∀ {world path manifest}, discipline.sound world → manifestAt format world.files path = some manifest → manifest.Formed
  grows : ∀ {before after}, discipline.sound before → discipline.stays before after → Grows format before.files after.files
  quiet : ∀ {before after}, after.files = before.files → before.events <+: after.events → discipline.step before after
  creates : ∀ {before after manifest proposal}, discipline.sound before → Decided format before.files manifest →
    before.files.get (manifestPath manifest.id) = none →
    after.files = before.files.put (manifestPath manifest.id) (format.render manifest) → before.events <+: after.events →
    discipline.allowed (.applies (some manifest) proposal) before after → discipline.step before after
  revises : ∀ {before after path current manifest}, discipline.sound before →
    (isManifestFile path = true → manifestAt format before.files path = some current ∧ Evolves current manifest) →
    inManifests path = true → manifest.Formed → after.files = before.files.put path (format.render manifest) →
    before.events <+: after.events → discipline.step before after
  moves : ∀ {before after artifactId spec content}, discipline.sound before → Carried site spec content before.files after.files →
    before.events <+: after.events → discipline.allowed (.moves artifactId spec) before after → discipline.step before after

end

section
variable {site : Site} {format : ManifestFormat} {discipline : Discipline IngestionWorld Note} {start : IngestionWorld} {α : Type}

/-! Records. -/

/-- The record is that of a manifest, whose notes may have been updated since. -/
def Recorded (format : ManifestFormat) (state : IngestionWorld) (record : ArtifactRecord) : Prop :=
  record.manifest.Formed ∧
    ∃ current, manifestAt format state.files record.manifestPath = some current ∧ Evolves record.manifest current

variable {before after : IngestionWorld} {path : String} {manifest : ArtifactManifest} {metadata : ManifestMetadata}
  {existing : List ArtifactRecord}

theorem Recorded.later (absorbs : Absorbs site format discipline) {record : ArtifactRecord}
    (recorded : Recorded format before record) (sound : discipline.sound before) (stays : discipline.stays before after) :
    Recorded format after record := by
  obtain ⟨formed, current, found, early⟩ := recorded
  obtain ⟨now, there, late⟩ := absorbs.grows sound stays record.manifestPath current found
  exact ⟨formed, now, there, early.trans late⟩

theorem readFile_behaves : discipline.Behaves (readFile path) start fun content state =>
    ∃ before, discipline.sound before ∧ discipline.stays start before ∧ discipline.stays before state ∧
      content = before.files.get path :=
  behaves_observe fun state _ sound stays further => ⟨state, discipline.kept stays sound, stays, further, rfl⟩

theorem hashPreservedFile_behaves :
    discipline.Behaves (hashPreservedFile site path) start fun _ state => discipline.stays start state := by
  apply behaves_bind behaves_look
  intro content middle _ reached
  cases content with
  | none => exact behaves_raise
  | some content => exact behaves_ret fun _ _ stays => reached.trans stays

theorem readManifests_behaves (absorbs : Absorbs site format discipline) (paths : List String) (directory : ∀ path ∈ paths, isManifestFile path = true) :
    discipline.Behaves (readManifests format paths) start fun found state =>
      discipline.stays start state ∧ ∀ record ∈ found, Recorded format state record := by
  induction paths generalizing start with
  | nil => exact behaves_ret fun state _ stays => ⟨stays, forall_mem_nil _⟩
  | cons path rest ih =>
    apply behaves_bind readFile_behaves
    rintro content middle _ ⟨before, sound, early, further, rfl⟩
    split
    · exact behaves_raise
    · next manifest parsed =>
      apply behaves_bind (ih fun other member => directory other (mem_cons_of_mem _ member))
      rintro records last _ ⟨stays, recorded⟩
      apply behaves_ret
      intro state inside later
      have onward := further.trans (stays.trans later)
      refine ⟨early.trans onward, ?_⟩
      intro record member
      rcases mem_cons.mp member with rfl | there
      · have found : manifestAt format before.files path = some manifest := by
          unfold manifestAt
          rw [if_pos (directory path mem_cons_self)]
          exact parsed
        have now : Recorded format before ⟨path, manifest⟩ := ⟨absorbs.formed sound found, manifest, found, Evolves.refl manifest⟩
        exact now.later absorbs sound onward
      · exact (recorded record there).later absorbs inside later

theorem records_behaves (absorbs : Absorbs site format discipline) : discipline.Behaves (records format) start fun found state =>
    discipline.stays start state ∧ ∀ record ∈ found, Recorded format state record := by
  have listing : discipline.Behaves (Client.observe .plain fun world : IngestionWorld =>
      (world.files.map Prod.fst).filter isManifestFile : IngestionClient (List String)) start fun paths state =>
      discipline.stays start state ∧ ∀ path ∈ paths, isManifestFile path = true :=
    behaves_observe fun _ _ _ stays further => ⟨stays.trans further, fun _ member => (mem_filter.mp member).2⟩
  apply behaves_bind listing
  rintro paths one _ ⟨first, directory⟩
  have sorted : ∀ path ∈ paths.insertionSort (· ≤ ·), isManifestFile path = true :=
    fun path member => directory path ((mem_insertionSort _).mp member)
  apply behaves_bind (readManifests_behaves absorbs _ sorted)
  rintro found two there ⟨second, recorded⟩
  apply behaves_bind behaves_ensure
  rintro _ three inside ⟨_, third⟩
  apply behaves_ret
  intro state _ stays
  refine ⟨((first.trans second).trans third).trans stays, ?_⟩
  intro record member
  exact ((recorded record ((mem_insertionSort _).mp member)).later absorbs there third).later absorbs inside stays

variable {artifactId receipt : String} {specs : List MoveSpec} {draws : IngestionDraws} {request : RegisterRequest}
  {diagnostics : List IngestionDiagnostic} {status : ArtifactStatus × Option String}

theorem recordById_behaves (absorbs : Absorbs site format discipline) :
    discipline.Behaves (recordById format artifactId) start fun record state =>
      discipline.stays start state ∧ Recorded format state record := by
  apply behaves_bind (records_behaves absorbs)
  rintro existing one inside ⟨first, recorded⟩
  split
  · next record single =>
    apply behaves_ret
    intro state _ stays
    have member : record ∈ existing := by
      have among : record ∈ existing.filter fun record => record.manifest.id == artifactId := by
        rw [single]
        exact mem_singleton_self _
      exact (mem_filter.mp among).1
    exact ⟨first.trans stays, (recorded record member).later absorbs inside stays⟩
  · exact behaves_raise

/-! Transactions. -/

theorem attempt_ok {proposal : Proposal} {outcome : Option (Except Failure Event)}
    (done : attempt site proposal before = .ok (outcome, after)) :
    (outcome = none ∧ after = before) ∨
      ((∃ failure, outcome = some (.error failure)) ∧ after.files = before.files ∧ before.events <+: after.events) ∨
      (∃ event, outcome = some (.ok event)) ∧ Committed site proposal before after := by
  unfold attempt at done
  split at done
  · cases done
  · split at done
    · cases done
      exact .inl ⟨rfl, rfl⟩
    · cases done
    · next result committed =>
      cases done
      rcases commit_ok committed with ⟨rfl, done⟩ | ⟨⟨failure, rfl⟩, rolledBack⟩
      · exact .inr (.inr ⟨⟨_, rfl⟩, done⟩)
      · exact .inr (.inl ⟨⟨failure, rfl⟩, rolledBack.files, rolledBack.events ▸ prefix_append _ _⟩)

section
variable (absorbs : Absorbs site format discipline)
include absorbs

variable {manifest : ArtifactManifest}

/-- The attempts of a transaction whose commits are good ones wherever they are made. -/
theorem applyAttempts_behaves {created : Option ArtifactManifest} {operation : FileOperation} {action : String} {draws : Nat → AwareDatetime × String} {fit post : IngestionWorld → Prop} (attempts : Nat)
    (stable : discipline.Stable fit) (last : discipline.Stable post) (ready : fit start)
    (commits : ∀ proposal before after, discipline.sound before → fit before →
      operate site before.files operation = .ok after.files → before.events <+: after.events →
      discipline.allowed (.applies created proposal) before after → discipline.step before after ∧ post after) :
    discipline.Behaves (applyAttempts site created manifest operation action draws attempts) start fun _ state => post state := by
  induction attempts generalizing start with
  | zero => exact behaves_raise
  | succ attempts ih =>
    apply behaves_inside
    intro sound
    apply behaves_bind behaves_look
    intro base one _ first
    apply behaves_bind behaves_ensure
    rintro _ two inside ⟨_, second⟩
    have fitting : fit two := stable start two sound ready (first.trans second)
    have tried : discipline.Behaves
        (Client.transact (.applies created (manifestProposal site manifest operation action (draws attempts) base))
          (attempt site (manifestProposal site manifest operation action (draws attempts) base))) two fun outcome state => (outcome = none → fit state) ∧ ∀ event, outcome = some (.ok event) → post state := by
      apply behaves_transact
      intro state outcome after later there stays done allowed
      have fit_ : fit state := stable two state inside fitting stays
      rcases attempt_ok done with ⟨rfl, rfl⟩ | ⟨⟨failure, rfl⟩, same, events⟩ | ⟨⟨event, rfl⟩, committed⟩
      · refine ⟨discipline.still _, ?_⟩
        intro further
        refine ⟨fun _ => stable _ later there fit_ further, ?_⟩
        intro event none_
        cases none_
      · refine ⟨absorbs.quiet same events, ?_⟩
        intro _
        refine ⟨fun none_ => ?_, fun event none_ => ?_⟩
        · cases none_
        · cases none_
      · have events : state.events <+: after.events := committed.events ▸ prefix_append _ _
        obtain ⟨good, reached⟩ := commits _ state after there fit_ (committed.single rfl) events allowed
        refine ⟨good, ?_⟩
        intro further
        refine ⟨fun none_ => ?_, fun _ _ => last after later (discipline.kept (discipline.related good) there) reached further⟩
        cases none_
    apply behaves_bind tried
    rintro outcome three _ ⟨again, committed⟩
    split
    · exact ih (again rfl)
    · next event => exact behaves_ret fun state sound stays => last three state sound (committed event rfl) stays
    · exact behaves_raise

theorem found_stable {path : String} :
    discipline.Stable (Found format path manifest) := by
  intro before later sound found stays there
  obtain ⟨current, here, early⟩ := found there
  obtain ⟨now, still, late⟩ := absorbs.grows sound stays path current here
  exact ⟨now, still, early.trans late⟩

theorem decided_stable :
    discipline.Stable fun state => Decided format state.files manifest := by
  intro before later sound decided stays
  refine ⟨decided.formed, decided.original, ?_⟩
  intro original duplicate
  obtain ⟨path, other, found, id, hash⟩ := decided.linked original duplicate
  obtain ⟨now, here, evolves⟩ := absorbs.grows sound stays path other found
  exact ⟨path, now, here, evolves.id.trans id, evolves.contentHash.trans hash⟩

theorem createManifest_behaves
    {draws : Nat → AwareDatetime × String} (decided : Decided format start.files manifest) :
    discipline.Behaves (createManifest site format manifest draws) start fun _ state =>
      Found format (manifestPath manifest.id) manifest state := by
  apply applyAttempts_behaves absorbs maxTransactionRetries (decided_stable absorbs) (found_stable absorbs) decided
  intro proposal before after sound still done events allowed
  obtain ⟨absent, changed⟩ := operate_create.mp done
  refine ⟨absorbs.creates sound still absent changed events allowed, ?_⟩
  intro there
  refine ⟨manifest, manifestAt_rendered ?_ there, Evolves.refl manifest⟩
  rw [changed, Directory.get_put_self]

theorem updateManifest_behaves {path : String} {old new : ArtifactManifest}
    {action : String} {draws : Nat → AwareDatetime × String} (found : Found format path old start)
    (directory : inManifests path = true) (formed : new.Formed) (evolves : Evolves old new)
    (final : new.status = .quarantined ∨ new.status = .processed) :
    discipline.Behaves (updateManifest site format path new action draws) start fun _ state => Found format path new state := by
  apply behaves_inside
  intro sound
  apply behaves_bind hashPreservedFile_behaves
  intro expectedHash middle _ stays
  apply applyAttempts_behaves absorbs maxTransactionRetries (found_stable absorbs) (found_stable absorbs)
    (found_stable absorbs start middle sound found stays)
  intro proposal before after inside still done events _
  obtain ⟨_, changed⟩ := operate_update.mp done
  refine ⟨?_, ?_⟩
  · by_cases there : isManifestFile path = true
    · obtain ⟨current, here, early⟩ := still there
      exact absorbs.revises inside (fun _ => ⟨here, early.onto evolves final⟩) directory formed changed events
    · have nowhere : isManifestFile path = true → manifestAt format before.files path = some old ∧ Evolves old new :=
        fun present => absurd present there
      exact absorbs.revises inside nowhere directory formed changed events
  · intro there
    refine ⟨new, manifestAt_rendered ?_ there, Evolves.refl new⟩
    rw [changed, Directory.get_put_self]

end

/-! Moves. -/

/-- The move is one from the raw zone to where files are preserved. -/
structure Planned (spec : MoveSpec) : Prop where
  raw : isRawPath spec.source = true
  preserving : Preserving spec.destination

theorem Carried.manifestAt {spec : MoveSpec} {content : Bytes} {before after : Files} (carried : Carried site spec content before after)
    (path : String) : manifestAt format after path = manifestAt format before path := by
  rw [carried.files]
  exact manifestAt_carried (isManifestFile_outside (rawPath_outside carried.raw))
    (isManifestFile_outside carried.preserving.outside) path

theorem moveFile_ok {spec : MoveSpec} {value : Unit} (planned : Planned spec)
    (done : moveFile site spec before = .ok (value, after)) :
    after = before ∨ ∃ content, Carried site spec content before.files after.files ∧ after.events = before.events := by
  unfold moveFile at done
  split at done
  · cases done
    exact .inl rfl
  · next pending =>
    split at done
    · cases done
    · next content found =>
      cases done
      exact .inr ⟨content, ⟨planned.raw, planned.preserving, pending, found, rfl⟩, rfl⟩
  · cases done

theorem moveFiles_behaves (absorbs : Absorbs site format discipline) (specs : List MoveSpec)
    (planned : ∀ spec ∈ specs, Planned spec) :
    discipline.Behaves (moveFiles site artifactId specs) start fun _ _ => True := by
  induction specs generalizing start with
  | nil => exact behaves_ret fun _ _ _ => trivial
  | cons spec rest ih =>
    have moved : discipline.Behaves (Client.transact (.moves artifactId spec) (moveFile site spec)) start fun _ _ => True := by
      apply behaves_transact
      intro state value after later sound _ done allowed
      refine ⟨?_, fun _ => trivial⟩
      rcases moveFile_ok (planned spec mem_cons_self) done with rfl | ⟨content, carried, events⟩
      · exact discipline.still _
      · exact absorbs.moves sound carried (events ▸ prefix_rfl) allowed
    apply behaves_bind moved
    exact fun _ _ _ _ => ih fun other member => planned other (mem_cons_of_mem _ member)

theorem finish_behaves (absorbs : Absorbs site format discipline) {reference : String}
    {outcome : Bool × Bool} (planned : ∀ spec ∈ specs, Planned spec) :
    discipline.Behaves (do
      moveFiles site artifactId specs
      Client.transact .plain (finalizeMove receipt reference)
      .ret outcome) start fun _ _ => True := by
  apply behaves_bind (moveFiles_behaves absorbs specs planned)
  intro _ middle _ _
  have finalized : discipline.Behaves (Client.transact .plain (finalizeMove receipt reference)) middle fun _ _ => True := by
    apply behaves_transact
    intro state value after later _ _ done _
    unfold finalizeMove at done
    split at done
    · cases done
      exact ⟨absorbs.quiet rfl prefix_rfl, fun _ => trivial⟩
    · cases done
  apply behaves_bind finalized
  exact fun _ _ _ _ => behaves_ret fun _ _ _ => trivial

theorem startMove_ok {reference transactionId : String}
    {value : MoveStart} (done : startMove site receipt reference transactionId specs before = .ok (value, after)) :
    after.files = before.files ∧ after.events = before.events := by
  unfold startMove at done
  split at done
  · cases done
  · split at done
    · split at done
      · cases done
        exact ⟨rfl, rfl⟩
      · cases done
        exact ⟨rfl, rfl⟩
      · cases done
    · split at done
      · cases done
      · split at done
        · cases done
        · cases done
          exact ⟨rfl, rfl⟩

theorem moveSpecs_planned
    (raw : ∀ path ∈ metadata.paths, isRawPath path = true) (preserving : ∀ path ∈ manifest.destinations, Preserving path)
    (found : moveSpecs manifest metadata = some specs) : ∀ spec ∈ specs, Planned spec := by
  unfold moveSpecs at found
  split at found
  · cases found
    intro spec member
    rcases mem_cons.mp member with rfl | there
    · exact ⟨raw _ mem_cons_self, preserving _ mem_cons_self⟩
    · obtain ⟨⟨sidecar, destination⟩, among, rfl⟩ := mem_map.mp there
      obtain ⟨source, target⟩ := of_mem_zip among
      constructor
      · exact raw _ (mem_cons_of_mem _ (mem_map_of_mem source))
      · exact preserving _ (mem_cons_of_mem _ target)
  · cases found

theorem moveManifest_behaves (absorbs : Absorbs site format discipline) {action : String} (raw : ∀ path ∈ metadata.paths, isRawPath path = true)
    (preserving : ∀ path ∈ manifest.destinations, Preserving path) :
    discipline.Behaves (moveManifest site action manifest metadata receipt) start fun _ _ => True := by
  unfold moveManifest
  split
  · exact behaves_raise
  · next specs found =>
    have planned := moveSpecs_planned raw preserving found
    have begun : discipline.Behaves (Client.transact .plain
        (startMove site receipt (artifactReference manifest) (moveTransactionId action manifest.id) specs)) start fun _ _ => True := by
      apply behaves_transact
      intro state value after later _ _ done _
      obtain ⟨files, events⟩ := startMove_ok done
      exact ⟨absorbs.quiet files (events ▸ prefix_rfl), fun _ => trivial⟩
    apply behaves_bind begun
    intro outcome _ _ _
    cases outcome with
    | applied => exact behaves_ret fun _ _ _ => trivial
    | started => exact finish_behaves absorbs planned
    | resumed => exact finish_behaves absorbs planned

theorem ArtifactManifest.Formed.preserving (formed : manifest.Formed)
    (notes : manifest.notes = some metadata) (final : manifest.status = .quarantined ∨ manifest.status = .processed) :
    ∀ path ∈ manifest.destinations, Preserving path := by
  intro path member
  rw [(formed metadata notes).2, ArtifactManifest.places] at member
  rcases final with quarantined | processed
  · rw [quarantined] at member
    exact mem_destinationsIn (.inl rfl) member
  · rw [processed] at member
    exact mem_destinationsIn (.inr rfl) member

/-! Registrations. -/

theorem withReceipt_evolves (receipt : String) (formed : manifest.Formed)
    (notes : manifest.notes = some metadata) :
    let updated := { manifest with notes := some { metadata with quarantineReceipt := some receipt } }
    Evolves manifest updated ∧ updated.Formed := by
  refine ⟨⟨rfl, rfl, rfl, ?_, .inl rfl⟩, ?_⟩
  · unfold ArtifactManifest.sources
    rw [notes]
  · intro other same
    cases same
    exact formed metadata notes

theorem persistQuarantineReceipt_behaves (absorbs : Absorbs site format discipline) {draws : Nat → AwareDatetime × String} (formed : manifest.Formed)
    (notes : manifest.notes = some metadata) (quarantined : manifest.status = .quarantined)
    (found : Found format path manifest start) (directory : inManifests path = true) :
    discipline.Behaves (persistQuarantineReceipt site format path manifest metadata receipt draws) start fun stored _ =>
      stored.1 = { manifest with notes := some { metadata with quarantineReceipt := some receipt } } := by
  obtain ⟨evolves, updated⟩ := withReceipt_evolves receipt formed notes
  apply behaves_bind (updateManifest_behaves absorbs found directory updated evolves (.inl quarantined))
  exact fun _ _ _ _ => behaves_ret fun _ _ _ => rfl

theorem resumeOrReturn_behaves (absorbs : Absorbs site format discipline) {record : ArtifactRecord}
    (recorded : Recorded format start record) :
    discipline.Behaves (resumeOrReturn site format record draws) start fun _ _ => True := by
  obtain ⟨formed, current, here, evolves⟩ := recorded
  have found : Found format record.manifestPath record.manifest start := fun _ => ⟨current, here, evolves⟩
  have directory := manifestFile_inManifests (manifestFile_of_at here)
  unfold resumeOrReturn
  split
  · next metadata quarantined notes =>
    have raw := (formed metadata notes).1
    have preserving := formed.preserving notes (.inl quarantined)
    split
    · apply behaves_bind (moveManifest_behaves absorbs raw preserving)
      exact fun _ _ _ _ => behaves_ret fun _ _ _ => trivial
    · apply behaves_inside
      intro inside
      apply behaves_bind behaves_look
      intro clean one _ first
      apply behaves_bind behaves_ensure
      rintro _ two _ ⟨_, second⟩
      have still := found_stable absorbs start two inside found (first.trans second)
      apply behaves_bind (updateManifest_behaves absorbs still directory formed (Evolves.refl _) (.inl quarantined))
      intro authorization three _ again
      apply behaves_bind (persistQuarantineReceipt_behaves absorbs formed notes quarantined again directory)
      rintro ⟨stored, receipt⟩ four _ rfl
      apply behaves_bind (moveManifest_behaves absorbs raw preserving)
      exact fun _ _ _ _ => behaves_ret fun _ _ _ => trivial
  · exact behaves_ret fun _ _ _ => trivial

/-- A record that a registration replays is one of those it has read. -/
theorem replayMoved_behaves
    (candidates : List (ArtifactRecord × ManifestMetadata)) (among : ∀ candidate ∈ candidates, candidate.1 ∈ existing) :
    discipline.Behaves (replayMoved request candidates) start fun found state =>
      discipline.stays start state ∧ ∀ record, found = some record → record ∈ existing := by
  induction candidates generalizing start with
  | nil => exact behaves_ret fun _ _ stays => ⟨stays, fun _ none_ => by cases none_⟩
  | cons candidate rest ih =>
    obtain ⟨record, metadata⟩ := candidate
    have later : ∀ other ∈ rest, other.1 ∈ existing := fun other member => among other (mem_cons_of_mem _ member)
    unfold replayMoved
    split
    · apply behaves_bind behaves_look
      intro preserved one _ first
      apply behaves_bind behaves_look
      intro clean two _ second
      split
      · apply behaves_ret
        intro state _ stays
        refine ⟨(first.trans second).trans stays, ?_⟩
        intro other same
        cases same
        exact among _ mem_cons_self
      · apply (ih later).weaken
        rintro value state _ ⟨stays, member⟩
        exact ⟨(first.trans second).trans stays, member⟩
    · exact ih later

theorem requireSidecars_behaves {message : String} (sidecars : List SidecarMetadata) :
    discipline.Behaves (requireSidecars site message sidecars) start fun _ state => discipline.stays start state := by
  induction sidecars generalizing start with
  | nil => exact behaves_ret fun _ _ stays => stays
  | cons sidecar rest ih =>
    apply behaves_bind hashPreservedFile_behaves
    intro current one _ first
    apply behaves_bind behaves_ensure
    rintro _ two _ ⟨_, second⟩
    apply ih.weaken
    exact fun _ _ _ stays => (first.trans second).trans stays

theorem replayLive_behaves {currentHash : String}
    (candidates : List (ArtifactRecord × ManifestMetadata)) (among : ∀ candidate ∈ candidates, candidate.1 ∈ existing) :
    discipline.Behaves (replayLive site request currentHash candidates) start fun found state =>
      discipline.stays start state ∧ ∀ record, found = some record → record ∈ existing := by
  induction candidates generalizing start with
  | nil => exact behaves_ret fun _ _ stays => ⟨stays, fun _ none_ => by cases none_⟩
  | cons candidate rest ih =>
    obtain ⟨record, metadata⟩ := candidate
    have later : ∀ other ∈ rest, other.1 ∈ existing := fun other member => among other (mem_cons_of_mem _ member)
    unfold replayLive
    split
    · apply behaves_bind behaves_look
      intro preserved one _ first
      split
      · apply behaves_bind behaves_ensure
        rintro _ two _ ⟨_, second⟩
        apply behaves_bind (requireSidecars_behaves _)
        intro _ three _ third
        apply behaves_ret
        intro state _ stays
        refine ⟨((first.trans second).trans third).trans stays, ?_⟩
        intro other same
        cases same
        exact among _ mem_cons_self
      · apply (ih later).weaken
        rintro value state _ ⟨stays, member⟩
        exact ⟨first.trans stays, member⟩
    · exact ih later

theorem replayCandidate_behaves {sourceExists : Bool} :
    discipline.Behaves (replayCandidate site existing request sourceExists) start fun found state =>
      discipline.stays start state ∧ ∀ record, found = some record → record ∈ existing := by
  have among : ∀ candidate ∈ (existing.filterMap fun record => record.manifest.notes.bind fun metadata =>
      if metadata.registeredPath = request.path then some (record, metadata) else none).reverse, candidate.1 ∈ existing := by
    intro candidate member
    obtain ⟨record, there, found⟩ := mem_filterMap.mp (mem_reverse.mp member)
    obtain ⟨metadata, _, chosen⟩ := Option.bind_eq_some_iff.mp found
    split at chosen
    · cases chosen
      exact there
    · cases chosen
  unfold replayCandidate
  dsimp only
  split
  · exact behaves_ret fun _ _ stays => ⟨stays, fun _ none_ => by cases none_⟩
  · split
    · apply behaves_bind hashPreservedFile_behaves
      intro currentHash one _ first
      apply (replayLive_behaves _ among).weaken
      rintro value state _ ⟨stays, member⟩
      exact ⟨first.trans stays, member⟩
    · exact replayMoved_behaves _ among

theorem scanPath_behaves {declared : Option String} :
    discipline.Behaves (scanPath site path declared draws) start fun scanned state =>
      discipline.stays start state ∧ scanned.relativePath = path := by
  apply behaves_bind behaves_look
  intro content one _ first
  cases content with
  | none => exact behaves_raise
  | some content => exact behaves_ret fun _ _ stays => ⟨first.trans stays, rfl⟩

theorem scanSidecars_behaves (paths : List String) :
    discipline.Behaves (scanSidecars site draws paths) start fun scanned state =>
      discipline.stays start state ∧ scanned.map ScannedPath.relativePath = paths := by
  induction paths generalizing start with
  | nil => exact behaves_ret fun _ _ stays => ⟨stays, rfl⟩
  | cons path rest ih =>
    apply behaves_bind scanPath_behaves
    rintro first one _ ⟨early, same⟩
    apply behaves_bind ih
    rintro others two _ ⟨later, equal⟩
    apply behaves_ret
    intro state _ stays
    refine ⟨(early.trans later).trans stays, ?_⟩
    rw [map_cons, same, equal]

theorem statusFor_ok {duplicate : Option ArtifactRecord} (done : statusFor request diagnostics duplicate = .ok status) :
    status = (.quarantined, none) ∨ status = (.pending, none) ∨
      ∃ record, duplicate = some record ∧ status = (.duplicate, some record.manifest.id) := by
  unfold statusFor at done
  split at done
  · cases done
    exact .inl rfl
  · split at done
    · cases done
      exact .inr (.inl rfl)
    · split at done
      · cases done
      · cases done
        exact .inr (.inr ⟨_, rfl, rfl⟩)

theorem newManifest_formed {ingestedAt : AwareDatetime} {primary : ScannedPath}
    {sidecars : List ScannedPath}
    (accepted : request.accepts = true) (scanned : sidecars.map ScannedPath.relativePath = request.sidecars)
    (known : status.1 = .quarantined ∨ status.1 = .pending ∨ status.1 = .duplicate) :
    (newManifest request artifactId ingestedAt primary sidecars diagnostics status).Formed := by
  simp only [RegisterRequest.accepts, Bool.and_eq_true, all_eq_true] at accepted
  obtain ⟨⟨⟨⟨⟨primaryRaw, sidecarsRaw⟩, _⟩, _⟩, _⟩, _⟩ := accepted
  have sources : (sidecars.map fun sidecar => (⟨sidecar.relativePath, sidecar.contentHash⟩ : SidecarMetadata)).map
      SidecarMetadata.sourcePath = sidecars.map ScannedPath.relativePath := by
    rw [map_map]
    rfl
  intro metadata same
  cases same
  constructor
  · intro path member
    unfold ManifestMetadata.paths at member
    rw [sources, scanned] at member
    rcases mem_cons.mp member with rfl | there
    · exact primaryRaw
    · exact sidecarsRaw path there
  · unfold ArtifactManifest.destinations ArtifactManifest.places newManifest ManifestMetadata.paths
    dsimp only
    rw [sources]
    rcases known with quarantined | pending | duplicate
    · rw [if_pos quarantined, quarantined]
      rfl
    · rw [pending]
      rfl
    · rw [duplicate]
      rfl

theorem newManifest_decided
    {ingestedAt : AwareDatetime} {primary : ScannedPath} {sidecars : List ScannedPath} (accepted : request.accepts = true)
    (scanned : sidecars.map ScannedPath.relativePath = request.sidecars)
    (recorded : ∀ record ∈ existing, Recorded format start record)
    (done : statusFor request diagnostics (firstByContentHash existing primary.contentHash) = .ok status) :
    Decided format start.files (newManifest request artifactId ingestedAt primary sidecars diagnostics status) := by
  have cases_ := statusFor_ok done
  refine ⟨newManifest_formed accepted scanned ?_, ?_, ?_⟩
  · rcases cases_ with rfl | rfl | ⟨record, _, rfl⟩
    · exact .inl rfl
    · exact .inr (.inl rfl)
    · exact .inr (.inr rfl)
  · intro notDuplicate notQuarantined
    rcases cases_ with rfl | rfl | ⟨record, _, rfl⟩
    · exact absurd rfl notQuarantined
    · rfl
    · exact absurd rfl notDuplicate
  · intro original duplicate
    rcases cases_ with rfl | rfl | ⟨record, found, rfl⟩
    · cases duplicate
    · cases duplicate
    · cases duplicate
      obtain ⟨_, current, there, evolves⟩ := recorded record (mem_of_find?_eq_some found)
      have hash := find?_some (p := fun record : ArtifactRecord => record.manifest.contentHash == primary.contentHash) found
      exact ⟨record.manifestPath, current, there, evolves.id, evolves.contentHash.trans (beq_iff_eq.mp hash)⟩

section
variable (absorbs : Absorbs site format discipline)
include absorbs

theorem quarantine_behaves {manifest : ArtifactManifest} (formed : manifest.Formed) (found : Found format (manifestPath manifest.id) manifest start) :
    discipline.Behaves (quarantine site format manifest receipt draws) start fun _ _ => True := by
  unfold quarantine
  split
  · next metadata quarantined notes =>
    apply behaves_bind (persistQuarantineReceipt_behaves absorbs formed notes quarantined found (manifestPath_inManifests _))
    rintro ⟨stored, receipt⟩ one _ rfl
    apply behaves_bind (moveManifest_behaves absorbs (formed metadata notes).1 (formed.preserving notes (.inl quarantined)))
    exact fun _ _ _ _ => behaves_ret fun _ _ _ => trivial
  · exact behaves_ret fun _ _ _ => trivial

theorem registerNew_behaves {existing : List ArtifactRecord} (accepted : request.accepts = true) (recorded : ∀ record ∈ existing, Recorded format start record) :
    discipline.Behaves (registerNew site format existing request draws) start fun _ _ => True := by
  apply behaves_inside
  intro inside
  apply behaves_bind scanPath_behaves
  rintro primary one _ ⟨first, _⟩
  apply behaves_bind (scanSidecars_behaves request.sidecars)
  rintro sidecars two _ ⟨second, scanned⟩
  apply behaves_bind behaves_ofExcept
  rintro status three _ ⟨done, third⟩
  apply behaves_bind behaves_ofExcept
  rintro artifactId four _ ⟨_, fourth⟩
  have stays := ((first.trans second).trans third).trans fourth
  have decided : Decided format four.files (newManifest request artifactId (normalizeTime draws.clock) primary sidecars
      (scanDiagnostics (primary :: sidecars)) status) :=
    newManifest_decided accepted scanned (fun record member => (recorded record member).later absorbs inside stays) done
  apply behaves_bind (createManifest_behaves absorbs decided)
  intro receipt five _ found
  apply behaves_bind (quarantine_behaves absorbs decided.formed found)
  exact fun _ _ _ _ => behaves_ret fun _ _ _ => trivial

theorem register_behaves :
    discipline.Behaves (register site format request draws) start fun _ _ => True := by
  apply behaves_bind behaves_ensure
  rintro _ one _ ⟨accepted, _⟩
  apply behaves_bind (records_behaves absorbs)
  rintro existing two inside ⟨_, recorded⟩
  apply behaves_bind behaves_look
  intro sourceExists three _ third
  apply behaves_bind replayCandidate_behaves
  rintro replay four _ ⟨fourth, member⟩
  have known : ∀ record ∈ existing, Recorded format four record :=
    fun record there => (recorded record there).later absorbs inside (third.trans fourth)
  cases replay with
  | some record => exact resumeOrReturn_behaves absorbs (known record (member record rfl))
  | none =>
    apply behaves_inside
    intro there
    apply behaves_bind behaves_ensure
    rintro _ five _ ⟨_, fifth⟩
    exact registerNew_behaves absorbs accepted fun record found => (known record found).later absorbs there fifth

/-! Batches. -/

/-- The steps of a batch are those of the registrations, whatever validates its transactions. -/
theorem Absorbs.batch (verdict : Proposal → Files → Files → Verdict) :
    Absorbs { site with verdict := verdict } format discipline where
  formed := absorbs.formed
  grows := absorbs.grows
  quiet := absorbs.quiet
  creates := absorbs.creates
  revises := absorbs.revises
  moves sound carried := absorbs.moves sound ⟨carried.raw, carried.preserving, carried.pending, carried.source, carried.files⟩

theorem registerItem_behaves :
    discipline.Behaves (registerItem site format request draws) start fun _ _ => True := by
  have registered : discipline.Behaves (do
      let disposition ← register site format request draws
      .ret (.registered disposition) : IngestionClient BatchOutcome) start fun _ _ => True := by
    apply behaves_bind (register_behaves absorbs)
    exact fun _ _ _ _ => behaves_ret fun _ _ _ => trivial
  apply behaves_handle registered fun _ _ _ => trivial
  intro error state _
  split
  · next duplicateOf =>
    have found : discipline.Behaves (do
        let record ← recordById format duplicateOf
        .ret (.duplicate record) : IngestionClient BatchOutcome) state fun _ _ => True := by
      apply behaves_bind (recordById_behaves absorbs)
      exact fun _ _ _ _ => behaves_ret fun _ _ _ => trivial
    apply behaves_handle found fun _ _ _ => trivial
    exact fun _ _ _ => behaves_ret fun _ _ _ => trivial
  · exact behaves_ret fun _ _ _ => trivial

theorem registerBatchRequests_behaves (requests : List (RegisterRequest × IngestionDraws)) :
    discipline.Behaves (registerBatchRequests site format requests) start fun _ _ => True := by
  induction requests generalizing start with
  | nil => exact behaves_ret fun _ _ _ => trivial
  | cons item rest ih =>
    apply behaves_bind (registerItem_behaves absorbs)
    intro outcome one _ _
    split
    · exact behaves_ret fun _ _ _ => trivial
    · apply behaves_bind ih
      exact fun _ _ _ _ => behaves_ret fun _ _ _ => trivial

theorem registerBatch_behaves {verdict : Proposal → Files → Files → Verdict}
    {requests : List (RegisterRequest × IngestionDraws)} :
    discipline.Behaves (registerBatch site format verdict requests) start fun _ _ => True := by
  unfold registerBatch
  split
  · exact behaves_ret fun _ _ _ => trivial
  · apply behaves_bind behaves_look
    intro clean _ _ _
    apply behaves_bind behaves_ensure
    exact fun _ _ _ _ => registerBatchRequests_behaves (absorbs.batch verdict) _

end

/-! Archives. -/

theorem archived_evolves (formed : manifest.Formed)
    (notes : manifest.notes = some metadata) (open_ : manifest.status = .pending ∨ manifest.status = .processing) :
    Evolves manifest (archived manifest metadata) ∧ (archived manifest metadata).Formed := by
  refine ⟨⟨rfl, rfl, rfl, rfl, .inr ⟨open_, rfl⟩⟩, ?_⟩
  intro other same
  have equal : metadata = other := Option.some.inj (notes.symm.trans same)
  subst equal
  exact ⟨(formed metadata notes).1, rfl⟩

section
variable (absorbs : Absorbs site format discipline)
include absorbs

theorem archiveManifest_behaves {record : ArtifactRecord} {metadata : ManifestMetadata} (recorded : Recorded format start record) (notes : record.manifest.notes = some metadata) :
    discipline.Behaves (archiveManifest site format record metadata draws) start fun manifest _ =>
      ∀ path ∈ manifest.destinations, Preserving path := by
  obtain ⟨formed, current, here, evolves⟩ := recorded
  have found : Found format record.manifestPath record.manifest start := fun _ => ⟨current, here, evolves⟩
  have directory := manifestFile_inManifests (manifestFile_of_at here)
  have update : ∀ status : record.manifest.status = .pending ∨ record.manifest.status = .processing, discipline.Behaves (do
      requireRegisteredHashes site record.manifest metadata
      let _ ← updateManifest site format record.manifestPath (archived record.manifest metadata) "archive-manifest" draws.attempts
      .ret (archived record.manifest metadata)) start fun manifest _ => ∀ path ∈ manifest.destinations, Preserving path := by
    intro status
    obtain ⟨ripens, ripe⟩ := archived_evolves formed notes status
    apply behaves_inside
    intro sound
    have checked : discipline.Behaves (requireRegisteredHashes site record.manifest metadata) start
        fun _ state => discipline.stays start state := by
      apply behaves_bind hashPreservedFile_behaves
      intro primary one _ first
      apply behaves_bind behaves_ensure
      rintro _ two _ ⟨_, second⟩
      apply (requireSidecars_behaves _).weaken
      exact fun _ _ _ stays => (first.trans second).trans stays
    apply behaves_bind checked
    intro _ one _ stays
    apply behaves_bind (updateManifest_behaves absorbs (found_stable absorbs start one sound found stays) directory ripe ripens (.inr rfl))
    exact fun _ _ _ _ => behaves_ret fun _ _ _ => ripe.preserving notes (.inr rfl)
  unfold archiveManifest
  split
  · next processed => exact behaves_ret fun _ _ _ => formed.preserving notes (.inr processed)
  · next pending => exact update (.inl pending)
  · next processing => exact update (.inr processing)
  · exact behaves_raise

theorem archiveAfter_behaves :
    discipline.Behaves (archiveAfter site format artifactId receipt draws) start fun _ _ => True := by
  apply behaves_bind (recordById_behaves absorbs)
  rintro record one inside ⟨_, recorded⟩
  apply behaves_bind behaves_look
  intro authentic two _ second
  apply behaves_bind behaves_ensure
  rintro _ three _ ⟨_, third⟩
  have known := recorded.later absorbs inside (second.trans third)
  split
  · exact behaves_raise
  · next metadata notes =>
    apply behaves_bind (archiveManifest_behaves absorbs known notes)
    intro manifest four _ preserving
    exact moveManifest_behaves absorbs (recorded.1 metadata notes).1 preserving

theorem call_behaves (call : Call) :
    discipline.Behaves (call.client site format) start fun _ _ => True := by
  cases call with
  | register request draws =>
    apply behaves_bind (register_behaves absorbs)
    exact fun _ _ _ _ => behaves_ret fun _ _ _ => trivial
  | registerBatch verdict requests =>
    apply behaves_bind (registerBatch_behaves absorbs)
    exact fun _ _ _ _ => behaves_ret fun _ _ _ => trivial
  | archiveAfter artifactId receipt draws =>
    apply behaves_bind (archiveAfter_behaves absorbs)
    exact fun _ _ _ _ => behaves_ret fun _ _ _ => trivial

end

end
end Workctx.Ingestion
