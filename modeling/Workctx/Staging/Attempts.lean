import Workctx.Staging.Published

/-! Attempts on a published intent, in any order and each interrupted anywhere, and what an
inspection and an undisturbed recovery find behind them. -/

namespace Workctx.Staging
open Workctx.Durable Workctx.Text Workctx.Domain List

namespace Plan
variable {workspace : Workspace}

/-- The intent of the plan is published, its operations have one of their shapes, and the other
canonical files are those of the base. -/
structure Published (plan : Plan workspace) (base disk : Disk) : Prop where
  intent : disk.files .intent = some (encodeIntent plan.record)
  present : disk.directories plan.directory = true
  shapes : plan.Shapes disk
  elsewhere : ∀ path ∉ plan.paths, disk.canonical path = base.canonical path

variable {plan : Plan workspace} {base start disk : Disk} {total : Prop} {cached : Bool} {lock : String}
  {expectedNonce : Option String} {record : IntentRecord} {tokens : Nat → String}

theorem Published.steady (published : plan.Published base start) (steady : plan.Steady start disk) :
    plan.Published base disk := by
  refine ⟨(steady.agrees.files .intent id).trans published.intent, ?_, steady.shapes, fun path outside => ?_⟩
  · rw [steady.agrees.directories]
    exact published.present
  · exact (steady.agrees.files (.canonical path) outside).trans (published.elsewhere path outside)

theorem Published.congr {other : Disk} (published : plan.Published base disk) (files : other.files = disk.files)
    (directories : other.directories = disk.directories) : plan.Published base other := by
  refine ⟨(congrFun files .intent).trans published.intent, ?_, fun entry member => ?_, fun path outside => ?_⟩
  · rw [directories]
    exact published.present
  · exact Planned.Holds.congr (fun file _ => congrFun files file) (published.shapes entry member)
  · exact (congrFun files (.canonical path)).trans (published.elsewhere path outside)

theorem Published.locked (published : plan.Published base disk) (held : Option String) :
    plan.Published base { disk with lock := held } := published.congr (by rfl) (by rfl)

theorem resolvable_of_opened (opened : plan.Opened disk) : ∀ path ∈ plan.paths, resolvable workspace cached disk path = true := by
  intro path member
  rw [resolvable, (plan.regular path member).resolves, opened path member]
  exact Bool.or_true _

theorem loadRequested_triple (published : plan.Published base start)
    (ready : total → record = plan.record ∧ plan.Opened start) :
    Triple total (fun disk => disk = start) (loadRequested workspace cached record)
      (fun validated disk => disk = start ∧ validated = plan.validated) (fun disk => disk = start) := by
  refine Triple.bind (Triple.check_keep (fun _ => id) ?_) fun loaded => ?_
  · intro must disk same
    rw [same]
    exact ⟨_, (plan.loadIntent_iff published.intent).mpr ⟨rfl, rfl, resolvable_of_opened (ready must).2⟩⟩
  apply Triple.of_each
  intro disk seen
  obtain ⟨same, found⟩ := seen
  rw [same] at found ⊢
  obtain ⟨durable, validated⟩ := loaded
  obtain ⟨sameRecord, sameValidated, _⟩ := (plan.loadIntent_iff published.intent).mp found
  refine Triple.bind (Triple.ensure_keep (fun _ => id) ?_) fun _ => Triple.ret fun disk seen => ⟨seen.1, sameValidated⟩
  intro must _ _
  rw [sameRecord, (ready must).1]
  exact beq_self_eq_true _

structure Able (plan : Plan workspace) (lock : String) (expectedNonce : Option String) (record : IntentRecord)
    (disk : Disk) : Prop where
  fenced : Fenced lock expectedNonce disk
  requested : record = plan.record
  opened : plan.Opened disk

section
variable (published : plan.Published base start)
include published

theorem request_triple {body : ValidatedIntent → Action Unit} {post : Unit → Disk → Prop} (able : total → plan.Able lock expectedNonce record start)
    (direction : Triple total (fun disk => disk = start) (body plan.validated) post (plan.Steady start)) :
    Triple total (fun disk => disk = start)
      (do
        activateResolutionCache lock expectedNonce
        let validated ← loadRequested workspace cached record
        body validated)
      post (plan.Steady start) := by
  have begin : ∀ disk, disk = start → plan.Steady start disk := by
    intro disk same
    rw [same]
    exact Steady.refl published.shapes
  refine Triple.bind (activateResolutionCache_triple begin fun must => (able must).fenced.owner) fun _ => ?_
  refine Triple.bind ((loadRequested_triple published fun must => ⟨(able must).requested, (able must).opened⟩).stopping
    begin) fun validated => Triple.of_each fun disk seen => ?_
  rw [seen.1, seen.2]
  exact direction

/-- `apply` and `complete_recovery` differ in the nonce they expect. -/
theorem forward_triple
    (able : total → plan.Able lock expectedNonce record start ∧ plan.Flat) :
    Triple total (fun disk => disk = start)
      (do
        activateResolutionCache lock expectedNonce
        let validated ← loadRequested workspace cached record
        applyValidated workspace lock expectedNonce validated)
      (fun _ disk => plan.Steady start disk ∧ plan.Applied disk) (plan.Steady start) := by
  refine request_triple published (fun must => (able must).1) (applyValidated_triple published.shapes fun must => ?_)
  exact ⟨(able must).1.fenced, published.present, (able must).1.opened, (able must).2⟩

/-- `rollback` and `rollback_recovery` differ in the nonce they expect. -/
theorem backward_triple
    (able : total → plan.Able lock expectedNonce record start ∧
      ∀ index, start.files (.asset plan.directory (.rebuild index (tokens index))) = none) :
    Triple total (fun disk => disk = start)
      (do
        activateResolutionCache lock expectedNonce
        let validated ← loadRequested workspace cached record
        rollbackValidated workspace lock expectedNonce tokens validated)
      (fun _ disk => plan.Steady start disk ∧
        ∀ entry ∈ plan.operations.zipIdx, entry.1.Restored disk plan.directory entry.2) (plan.Steady start) := by
  refine request_triple published (fun must => (able must).1) (rollbackValidated_triple published.shapes fun must => ?_)
  exact ⟨(able must).1.fenced, published.present, (able must).1.opened, (able must).2⟩

end

theorem undone_of_restored (restored : ∀ entry ∈ plan.operations.zipIdx, entry.1.Restored disk plan.directory entry.2) :
    plan.Undone disk := by
  intro planned member
  obtain ⟨index, found⟩ := getElem?_of_mem member
  exact (restored (planned, index) (mem_zipIdx_iff_getElem?.mpr found)).undone

theorem done_of_applied (shapes : plan.Shapes disk) (apart : ∀ planned ∈ plan.operations, planned.HashesApart workspace.platform)
    (found : plan.Applied disk) : plan.Done disk := by
  intro planned member
  obtain ⟨index, place⟩ := getElem?_of_mem member
  exact Planned.done_of_applied (shapes (planned, index) (mem_zipIdx_iff_getElem?.mpr place)).images
    (apart planned member) (found planned member)

/-! Inspection. -/

/-- An inspection of a published intent reports what each operation says about itself. -/
theorem inspectRecovery_of (published : plan.Published base disk) (opened : plan.Opened disk) :
    inspectRecovery workspace disk =
      ⟨overallState (plan.operations.map (Planned.state workspace disk)), some plan.record,
        plan.operations.map (Planned.state workspace disk)⟩ := by
  have loaded : loadIntent workspace false disk = .ok (plan.record, plan.validated) :=
    (plan.loadIntent_iff published.intent).mpr ⟨rfl, rfl, resolvable_of_opened opened⟩
  have states : inspectTargets workspace disk plan.validated = plan.operations.map (Planned.state workspace disk) := by
    unfold inspectTargets
    apply ext_getElem?
    intro index
    rw [getElem?_mapIdx, validated, getElem?_map, getElem?_map]
    cases place : plan.operations[index]? with
    | none => rfl
    | some planned =>
      have member : (planned, index) ∈ plan.operations.zipIdx := mem_zipIdx_iff_getElem?.mpr place
      have inside := mem_of_mem_zipIdx member
      rw [Option.map_some, Option.map_some, Option.map_some, inspectTarget,
        snapshot_exists (regular_of_entry inside) (published.shapes _ member) (opened_of_entry opened inside)
          published.present]
      rfl
  simp only [inspectRecovery, published.intent, loaded, states]

theorem state_ne_conflict {planned : Planned} : planned.state workspace disk ≠ .conflict := by
  rw [Planned.state]
  split <;> simp

theorem overallState_regular {states : List TargetRecoveryState} (regular : ∀ state ∈ states, state ≠ .conflict) :
    overallState states ≠ .recoveryConflict ∧ overallState states ≠ .invalidIntent := by
  have absent : TargetRecoveryState.conflict ∉ states := fun member => regular _ member rfl
  unfold overallState
  rw [if_neg absent]
  split
  · exact ⟨by decide, by decide⟩
  · split
    · exact ⟨by decide, by decide⟩
    · exact ⟨by decide, by decide⟩

theorem inspected_of (published : plan.Published base disk) (opened : plan.Opened disk) :
    (inspectRecovery workspace disk).state ≠ .recoveryConflict ∧ (inspectRecovery workspace disk).state ≠ .invalidIntent := by
  rw [inspectRecovery_of published opened]
  refine overallState_regular fun state member => ?_
  obtain ⟨planned, _, same⟩ := mem_map.mp member
  rw [← same]
  exact state_ne_conflict

/-- The published intent with every preimage in place and every asset staged. -/
structure Prepared (plan : Plan workspace) (disk : Disk) : Prop where
  intent : disk.files .intent = some (encodeIntent plan.record)
  present : disk.directories plan.directory = true
  backups : ∀ entry ∈ plan.operations.zipIdx, disk.files (.asset plan.directory (.backup entry.2)) = entry.1.preimage
  restored : ∀ entry ∈ plan.operations.zipIdx, entry.1.Restored disk plan.directory entry.2

theorem Prepared.published (prepared : plan.Prepared disk) : plan.Published disk disk := by
  refine ⟨prepared.intent, prepared.present, fun entry member => ?_, fun _ _ => rfl⟩
  obtain ⟨undone, stocked⟩ := prepared.restored entry member
  refine ⟨prepared.backups entry member, ?_, .inl undone⟩
  obtain ⟨planned, index⟩ := entry
  cases planned with
  | replace target preimage postimage => exact .inl ⟨undone, stocked⟩
  | move source destination content => trivial
  | delete target preimage => trivial

/-- What both directions can still do from here. -/
structure Recoverable (plan : Plan workspace) (disk : Disk) : Prop where
  inspected : (inspectRecovery workspace disk).state ≠ .recoveryConflict ∧
    (inspectRecovery workspace disk).state ≠ .invalidIntent
  kept : plan.Shapes disk
  forward : ∀ cached lock, ∃ after,
    (completeRecovery workspace cached lock plan.record).run { disk with lock := some lock } [] = .ok () after [] ∧
      plan.Applied after ∧
      ((∀ planned ∈ plan.operations, planned.HashesApart workspace.platform) → plan.Done after)
  backward : ∀ cached lock tokens,
    (∀ index, disk.files (.asset plan.directory (.rebuild index (tokens index))) = none) → ∃ after,
      (rollbackRecovery workspace cached lock tokens plan.record).run { disk with lock := some lock } [] = .ok () after [] ∧
        plan.Undone after

theorem opened_locked (opened : plan.Opened disk) (held : Option String) : plan.Opened { disk with lock := held } := by
  intro path member
  rw [nestedContext_congr (show Kept disk { disk with lock := held } from fun _ => rfl)]
  exact opened path member

theorem recoverable (published : plan.Published base disk) (opened : plan.Opened disk) (flat : plan.Flat) :
    plan.Recoverable disk := by
  have able : ∀ lock, plan.Able lock none plan.record { disk with lock := some lock } :=
    fun lock => ⟨⟨rfl, rfl⟩, rfl, opened_locked opened (some lock)⟩
  refine ⟨inspected_of published opened, published.shapes, fun cached lock => ?_, fun cached lock tokens fresh => ?_⟩
  · obtain ⟨_, after, ran, steady, found⟩ := Triple.completes
      (forward_triple (published.locked (some lock)) fun (_ : True) => ⟨able lock, flat⟩) rfl
    exact ⟨after, ran, found, fun apart => done_of_applied steady.shapes apart found⟩
  · obtain ⟨_, after, ran, _, restored⟩ := Triple.completes
      (backward_triple (published.locked (some lock)) fun (_ : True) => ⟨able lock, fresh⟩) rfl
    exact ⟨after, ran, undone_of_restored restored⟩

/-- The created files and the move destinations of the plan are not named like the marker of a
context in a directory below the root. -/
def NoNested (plan : Plan workspace) : Prop :=
  ∀ planned ∈ plan.operations, ∀ path, planned.writtenPath = some path → path ∉ contextMarkers path

theorem flat_of_noNested (written : plan.NoNested) : plan.Flat := by
  intro path member marks
  obtain ⟨planned, inside, own⟩ := mem_flatMap.mp member
  have plain := plan.plain planned inside
  cases planned with
  | replace target preimage postimage =>
    rw [mem_singleton.mp own] at marks
    exact written _ inside target rfl marks
  | move source destination content =>
    rcases mem_cons.mp own with same | arrives
    · rw [same] at marks
      cases plain marks
    · rw [mem_singleton.mp arrives] at marks
      exact written _ inside destination rfl marks
  | delete target preimage =>
    rw [mem_singleton.mp own] at marks
    cases plain marks

end Plan

/-! Runs of attempts. -/

inductive Call where
  | apply
  | completeRecovery
  | rollback
  | rollbackRecovery

/-- One call of the staging layer: the lease it is given, the lock found on disk, whether the
lease has resolved the paths before, the names it draws, and what interrupts it. -/
structure Session where
  call : Call
  cached : Bool
  lock : String
  held : Option String
  tokens : Nat → String
  faults : List (Fault Torn Failure)

section
variable (workspace : Workspace) (record : IntentRecord)

def Session.program (session : Session) : Action Unit :=
  match session.call with
  | .apply => Staging.apply workspace session.cached session.lock record
  | .completeRecovery => Staging.completeRecovery workspace session.cached session.lock record
  | .rollback => Staging.rollback workspace session.cached session.lock session.tokens record
  | .rollbackRecovery => Staging.rollbackRecovery workspace session.cached session.lock session.tokens record

def Session.run (session : Session) (disk : Disk) : Disk :=
  ((session.program workspace record).run { disk with lock := session.held } session.faults).store

def runSessions (sessions : List Session) (disk : Disk) : Disk :=
  sessions.foldl (fun disk session => session.run workspace record disk) disk

end

section
variable {workspace : Workspace} {plan : Plan workspace} {base disk : Disk} {record : IntentRecord}

/-- Wherever an attempt stops, it was one more step between the images. -/
theorem Session.steady (published : plan.Published base disk) (session : Session) :
    plan.Steady { disk with lock := session.held } (session.run workspace record disk) := by
  have locked := published.locked session.held
  unfold Session.run Session.program
  cases session.call with
  | apply => exact Triple.run_leaves (Plan.forward_triple locked False.elim) (fun _ _ done => done.1) rfl _
  | completeRecovery => exact Triple.run_leaves (Plan.forward_triple locked False.elim) (fun _ _ done => done.1) rfl _
  | rollback => exact Triple.run_leaves (Plan.backward_triple locked False.elim) (fun _ _ done => done.1) rfl _
  | rollbackRecovery => exact Triple.run_leaves (Plan.backward_triple locked False.elim) (fun _ _ done => done.1) rfl _

theorem runSessions_published (published : plan.Published base disk) (opened : plan.Opened disk) (flat : plan.Flat)
    (sessions : List Session) :
    plan.Published base (runSessions workspace record sessions disk) ∧
      plan.Opened (runSessions workspace record sessions disk) := by
  induction sessions generalizing disk with
  | nil => exact ⟨published, opened⟩
  | cons session rest ih =>
    have steady : plan.Steady { disk with lock := session.held } (session.run workspace record disk) :=
      Session.steady published session
    exact ih ((published.locked session.held).steady steady)
      (Plan.opened_of_flat flat (Plan.opened_locked opened session.held) steady)

/-- The staging lattice: no sequence of interrupted attempts leaves it, and both ends can be
reached from everywhere in it. -/
theorem staging_lattice (prepared : plan.Prepared base) (opened : plan.Opened base) (written : plan.NoNested)
    (sessions : List Session) : plan.Recoverable (runSessions workspace plan.record sessions base) := by
  have flat := Plan.flat_of_noNested written
  obtain ⟨published, opened⟩ := runSessions_published prepared.published opened flat sessions
  exact Plan.recoverable published opened flat

/-! A move onto the marker of a context. -/

theorem applyLone_triple {total : Prop} {lock : String} {expectedNonce : Option String} {planned : Planned}
    (lone : plan.operations = [planned]) (published : plan.Published base disk)
    (able : total → plan.Able lock expectedNonce record disk) :
    Triple total (fun now => now = disk) (applyValidated workspace lock expectedNonce plan.validated)
      (fun _ now => plan.Steady disk now ∧ plan.Applied now) (plan.Steady disk) := by
  have member : planned ∈ plan.operations := by rw [lone]; exact mem_cons_self
  have entry : (planned, 0) ∈ plan.operations.zipIdx := by rw [lone]; exact mem_cons_self
  have begin : ∀ now, now = disk → plan.Steady disk now := by
    intro now same
    rw [same]
    exact Plan.Steady.refl published.shapes
  refine Triple.bind ((Plan.requireNoConflict_triple published.shapes fun must =>
    ⟨published.present, (able must).opened⟩).stopping begin) fun _ => ?_
  refine Triple.bind (verifyLock_triple begin fun must now same => same ▸ (able must).fenced) fun _ => ?_
  rw [Plan.zipIdx_validated, lone]
  refine Triple.bind ((applyOperation_triple (Plan.regular_of_entry member) (Plan.operation_paths_nodup member)
    (published.shapes _ entry) ?_).stopping fun now stable =>
      (Plan.Steady.refl published.shapes).step entry stable) fun _ => Triple.ret fun now done => ?_
  · intro must
    exact ⟨(able must).fenced, Plan.opened_of_entry (able must).opened member, published.present⟩
  · refine ⟨(Plan.Steady.refl published.shapes).step entry done.1, fun other inside => ?_⟩
    rw [lone, mem_singleton] at inside
    rw [inside]
    exact done.2

/-- Once a lone move to such a place is done, its own destination is no longer resolved. -/
theorem nested_move_invalid {source destination : String} {content : Bytes}
    (lone : plan.operations = [.move source destination content]) (marks : destination ∈ contextMarkers destination)
    (published : plan.Published base disk) (opened : plan.Opened disk) (lock : String) :
    ∃ after, (completeRecovery workspace false lock plan.record).run { disk with lock := some lock } [] = .ok () after [] ∧
      (inspectRecovery workspace after).state = .invalidIntent := by
  have locked := published.locked (some lock)
  have able : True → plan.Able lock none plan.record { disk with lock := some lock } :=
    fun _ => ⟨⟨rfl, rfl⟩, rfl, Plan.opened_locked opened (some lock)⟩
  obtain ⟨_, after, ran, steady, found⟩ := Triple.completes
    (Plan.request_triple locked able (applyLone_triple lone locked able)) rfl
  refine ⟨after, ran, ?_⟩
  have inside : Planned.move source destination content ∈ plan.operations := by rw [lone]; exact mem_cons_self
  have entry : (Planned.move source destination content, 0) ∈ plan.operations.zipIdx := by
    rw [lone]
    exact mem_cons_self
  have done : (Planned.move source destination content).Done after :=
    Planned.done_of_applied (steady.shapes _ entry).images trivial (found _ inside)
  have arrival : destination ∈ plan.paths := Plan.mem_paths inside (by simp [Planned.paths, Planned.destination])
  have closed : nestedContext after destination = true := by
    rw [nestedContext, any_eq_true]
    exact ⟨destination, marks, by rw [done.2]; rfl⟩
  have intent := (locked.steady steady).intent
  simp only [inspectRecovery, intent]
  cases loaded : loadIntent workspace false after with
  | error failure => rfl
  | ok pair =>
    obtain ⟨_, _, open_⟩ := (plan.loadIntent_iff intent).mp loaded
    have resolved := open_ destination arrival
    rw [resolvable, closed, Bool.not_true, Bool.and_false] at resolved
    cases resolved

end
/-- A workspace on a platform that answers as the real one for the one content below. -/
def sampleWorkspace : Workspace where
  platform :=
    { sha256Hex := fun _ => "ca978112ca1bbdcafac231b39a23dc4da786eff8147c4e72b9807785afee48bb"
      hexDigest := fun _ => by decide
      nfc := id
      casefold := id
      canonicalTimestamp := some
      validateDurableReference := some
      workctxContext := fun _ => none }
  maxAttempts := 20
  positive := by decide
  resolves _ := true
  hasParent _ := true
  plainParents _ := true
  sameVolume _ := true
  safeLeaf _ := true

def movePlan (source destination : String) (canonical : ∀ path ∈ [source, destination], canonicalTarget path = some path)
    (distinct : source ≠ destination) (plain : source ∉ contextMarkers source) : Plan sampleWorkspace where
  transactionId := "TXP-20250101T000000Z-move"
  nonce := "0123456789abcdef0123456789abcdef"
  directory := "txn-0123456789abcdef01234567"
  operations := [.move source destination [97]]
  identified := by decide
  nonceValid := by decide
  directoryValid := by decide
  nonempty := by simp
  canonical := canonical
  regular := fun _ _ => ⟨rfl, rfl, rfl, rfl, rfl⟩
  distinct := by simpa [Planned.paths, Planned.target, Planned.destination, Platform.pathKey, sampleWorkspace] using distinct
  plain := by
    intro planned member marks
    rw [List.mem_singleton.mp member] at marks
    exact absurd marks plain

/-- The disk on which the intent of a move was just published. -/
def preparedDisk (plan : Plan sampleWorkspace) (source : String) : Disk where
  files file := match file with
    | .intent => some (encodeIntent plan.record)
    | .canonical path => if path = source then some [97] else none
    | .asset directory name => if directory = plan.directory ∧ name = .backup 0 then some [97] else none
  directories directory := directory == plan.directory
  lock := none
  ledger := []

section
variable {source destination : String} {canonical : ∀ path ∈ [source, destination], canonicalTarget path = some path}
  {distinct : source ≠ destination} {plain : source ∉ contextMarkers source}

theorem movePlan_prepared : (movePlan source destination canonical distinct plain).Prepared
    (preparedDisk (movePlan source destination canonical distinct plain) source) := by
  refine ⟨rfl, beq_self_eq_true _, fun entry member => ?_, fun entry member => ?_⟩
  · rw [mem_singleton.mp member]
    simp [preparedDisk, movePlan, Planned.preimage]
  · rw [mem_singleton.mp member]
    exact ⟨⟨if_pos rfl, if_neg distinct.symm⟩, trivial⟩

theorem movePlan_opened (apart : source ∉ contextMarkers source ++ contextMarkers destination) :
    (movePlan source destination canonical distinct plain).Opened
      (preparedDisk (movePlan source destination canonical distinct plain) source) := by
  refine Plan.opened_of_absent fun path member marker marks => ?_
  refine if_neg fun same => apart ?_
  rw [same] at marks
  rcases mem_cons.mp member with first | second
  · rw [first] at marks
    exact mem_append_left _ marks
  · rw [mem_singleton.mp second] at marks
    exact mem_append_right _ marks

end

def plainMove : Plan sampleWorkspace := movePlan "00_inbox/a.md" "01_processed/a.md" (by decide) (by decide) (by decide)

theorem staging_lattice_plainMove :
    plainMove.Recoverable (runSessions sampleWorkspace plainMove.record
      [⟨.apply, false, "0123456789abcdef0123456789abcdef", some "0123456789abcdef0123456789abcdef", fun _ => "", []⟩,
        ⟨.rollbackRecovery, false, "b", some "b", fun _ => "", [.crash .landed]⟩]
      (preparedDisk plainMove "00_inbox/a.md")) := by
  refine staging_lattice movePlan_prepared (movePlan_opened (by decide)) ?_ _
  intro planned member path writes
  rw [List.mem_singleton.mp member] at writes
  cases writes
  decide

/-- The content of a topic is moved to the place that marks its directory as a context. -/
def nestedMove : Plan sampleWorkspace :=
  movePlan "00_inbox/a.yaml" "01_processed/context.yaml" (by decide) (by decide) (by decide)

theorem nested_move_not_recoverable :
    nestedMove.Prepared (preparedDisk nestedMove "00_inbox/a.yaml") ∧
      nestedMove.Opened (preparedDisk nestedMove "00_inbox/a.yaml") ∧
      ¬∀ sessions, nestedMove.Recoverable
        (runSessions sampleWorkspace nestedMove.record sessions (preparedDisk nestedMove "00_inbox/a.yaml")) := by
  have prepared : nestedMove.Prepared (preparedDisk nestedMove "00_inbox/a.yaml") := movePlan_prepared
  have opened : nestedMove.Opened (preparedDisk nestedMove "00_inbox/a.yaml") := movePlan_opened (by decide)
  refine ⟨prepared, opened, fun claimed => ?_⟩
  have marks : "01_processed/context.yaml" ∈ contextMarkers "01_processed/context.yaml" := by decide
  have lone : nestedMove.operations = [.move "00_inbox/a.yaml" "01_processed/context.yaml" [97]] := rfl
  obtain ⟨after, ran, invalid⟩ := nested_move_invalid lone marks prepared.published opened "a"
  have later := (claimed [⟨.completeRecovery, false, "a", some "a", fun _ => "", []⟩]).inspected.2
  have reached : runSessions sampleWorkspace nestedMove.record [⟨.completeRecovery, false, "a", some "a", fun _ => "", []⟩]
      (preparedDisk nestedMove "00_inbox/a.yaml") = after := by
    unfold runSessions
    rw [List.foldl_cons, List.foldl_nil, Session.run, Session.program, ran]
    rfl
  rw [reached] at later
  exact later invalid

end Workctx.Staging
