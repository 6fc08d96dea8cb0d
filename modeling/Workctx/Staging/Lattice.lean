import Workctx.Staging.Steps

/-! The two directions on one operation: wherever an attempt stops, the files of the operation
keep one of their shapes and no other file changes. -/

namespace Workctx.Staging
open Workctx.Durable Workctx.Text Workctx.Domain

structure Agrees (region : File → Prop) (start disk : Disk) : Prop where
  files : ∀ file, ¬region file → disk.files file = start.files file
  directories : disk.directories = start.directories
  lock : disk.lock = start.lock
  ledger : disk.ledger = start.ledger

theorem files_set (disk : Disk) (file other : File) (content : Option Bytes) :
    (disk.set file content).files other = if other = file then content else disk.files other := by
  split
  · next same => rw [same, set_files_self]
  · next apart => rw [set_files_other disk apart]

theorem files_moved (disk : Disk) (source target file : File) :
    (disk.moved source target).files file =
      if file = source then none else if file = target then disk.files source else disk.files file := by
  rw [Disk.moved, files_set, files_set]

namespace Agrees
variable {region : File → Prop} {start disk : Disk}

theorem refl (region : File → Prop) (disk : Disk) : Agrees region disk disk := ⟨fun _ _ => rfl, rfl, rfl, rfl⟩

theorem trans {middle : Disk} (one : Agrees region start middle) (two : Agrees region middle disk) :
    Agrees region start disk :=
  ⟨fun file outside => (two.files file outside).trans (one.files file outside), two.directories.trans one.directories,
    two.lock.trans one.lock, two.ledger.trans one.ledger⟩

theorem set (agrees : Agrees region start disk) {file : File} (inside : region file) (content : Option Bytes) :
    Agrees region start (disk.set file content) := by
  refine ⟨fun other outside => ?_, agrees.directories, agrees.lock, agrees.ledger⟩
  have apart : other ≠ file := fun same => outside (by rw [same]; exact inside)
  rw [files_set, if_neg apart]
  exact agrees.files other outside

theorem moved (agrees : Agrees region start disk) {source target : File} (leaves : region source) (enters : region target) :
    Agrees region start (disk.moved source target) := (agrees.set enters _).set leaves _

end Agrees

/-- An operation stopped anywhere: its own files have one of their shapes, the others are as
they were. -/
structure Stable (start : Disk) (directory : String) (index : Nat) (planned : Planned) (disk : Disk) : Prop where
  agrees : Agrees (planned.Touches directory index) start disk
  holds : planned.Holds disk directory index

/-- What an undisturbed attempt needs besides the shapes of the files. -/
structure Ready (lock : String) (expectedNonce : Option String) (directory : String) (planned : Planned) (disk : Disk) :
    Prop where
  fenced : Fenced lock expectedNonce disk
  opened : Open disk planned
  present : disk.directories directory = true

section
variable {workspace : Workspace} {total : Prop} {lock directory token : String} {expectedNonce : Option String}
  {index : Nat} {planned : Planned} {start : Disk}

theorem touches_target : planned.Touches directory index (.canonical planned.target) := Planned.target_mem_paths planned

variable {name : AssetName} {preimage : Bytes}

theorem touches_asset (own : name = .stage index ∨ name = .backup index ∨ name = .rollback index ∨
    ∃ token, name = .rebuild index token) : planned.Touches directory index (.asset directory name) := ⟨rfl, own⟩

variable {disk : Disk}

theorem revalidateOwnedFile_canonical {path : String} {allowMissing : Bool}
    (regular : workspace.Regular path) (opened : nestedContext disk path = false)
    (present : allowMissing = false → (disk.canonical path).isSome = true) :
    revalidateOwnedFile workspace disk (.canonical path) allowMissing = .ok () := by
  have found : (!allowMissing && (disk.canonical path).isNone) = false := by
    cases allowMissing with
    | true => rfl
    | false =>
      have some := present rfl
      rw [Option.isSome_iff_exists] at some
      obtain ⟨content, same⟩ := some
      rw [same]
      rfl
  rw [Disk.canonical] at found
  simp [revalidateOwnedFile, parentsPlain_of regular opened, File.safe, regular.safeLeaf, found]

theorem revalidateOwnedFile_asset (present : disk.directories directory = true)
    (found : (disk.files (.asset directory name)).isSome = true) :
    revalidateOwnedFile workspace disk (.asset directory name) false = .ok () := by
  obtain ⟨content, same⟩ := Option.isSome_iff_exists.mp found
  simp [revalidateOwnedFile, present, File.safe, same]

theorem snapshot_of_ok {snapshot : OperationSnapshot} (regular : ∀ path ∈ planned.paths, workspace.Regular path)
    (holds : planned.Holds disk directory index)
    (seen : snapshotOperation workspace disk directory index (planned.operation workspace.platform) = .ok snapshot) :
    snapshot = planned.snapshot workspace disk directory index := by
  rw [snapshotOperation_eq regular holds] at seen
  cases parents : requireOperationParents workspace disk directory (planned.operation workspace.platform) with
  | error failure => rw [parents] at seen; cases seen
  | ok _ => rw [parents] at seen; cases seen; rfl

theorem snapshot_exists (regular : ∀ path ∈ planned.paths, workspace.Regular path)
    (holds : planned.Holds disk directory index) (opened : Open disk planned)
    (present : disk.directories directory = true) :
    snapshotOperation workspace disk directory index (planned.operation workspace.platform) =
      .ok (planned.snapshot workspace disk directory index) := by
  rw [snapshotOperation_eq regular holds, requireOperationParents_of regular opened present]
  rfl

theorem replaced {target : String} {preimage : Option Bytes} {postimage : Bytes}
    (stable : Stable start directory index (.replace target preimage postimage) disk)
    (stage : disk.files (.asset directory (.stage index)) = some postimage) :
    Stable start directory index (.replace target preimage postimage)
        (disk.moved (.asset directory (.stage index)) (.canonical target)) ∧
      (Planned.replace target preimage postimage).Done
        (disk.moved (.asset directory (.stage index)) (.canonical target)) := by
  have done : (Planned.replace target preimage postimage).Done
      (disk.moved (.asset directory (.stage index)) (.canonical target)) := by
    simp [Planned.Done, Disk.canonical, files_moved, stage]
  refine ⟨⟨stable.agrees.moved (touches_asset (.inl rfl)) touches_target, ?_, ?_, .inr done⟩, done⟩
  · rw [files_moved, if_neg (by simp), if_neg (by simp)]
    exact stable.holds.backup
  · exact .inr ⟨done, .inl (by rw [files_moved, if_pos rfl])⟩

theorem moved_forward {source destination : String} {content : Bytes} (apart : source ≠ destination)
    (stable : Stable start directory index (.move source destination content) disk)
    (present : disk.canonical source = some content) :
    Stable start directory index (.move source destination content)
        (disk.moved (.canonical source) (.canonical destination)) ∧
      (Planned.move source destination content).Done (disk.moved (.canonical source) (.canonical destination)) := by
  rw [Disk.canonical] at present
  have done : (Planned.move source destination content).Done
      (disk.moved (.canonical source) (.canonical destination)) := by
    simp [Planned.Done, Disk.canonical, files_moved, present, apart.symm]
  refine ⟨⟨stable.agrees.moved touches_target ?_, ?_, trivial, .inr done⟩, done⟩
  · show destination ∈ [source, destination]
    simp
  · rw [files_moved, if_neg (by simp), if_neg (by simp)]
    exact stable.holds.backup

theorem moved_back {source destination : String} {content : Bytes} (apart : source ≠ destination)
    (stable : Stable start directory index (.move source destination content) disk)
    (present : disk.canonical destination = some content) :
    Stable start directory index (.move source destination content)
        (disk.moved (.canonical destination) (.canonical source)) ∧
      (Planned.move source destination content).Undone (disk.moved (.canonical destination) (.canonical source)) := by
  rw [Disk.canonical] at present
  have undone : (Planned.move source destination content).Undone
      (disk.moved (.canonical destination) (.canonical source)) := by
    simp [Planned.Undone, Disk.canonical, files_moved, present, apart]
  refine ⟨⟨stable.agrees.moved ?_ touches_target, ?_, trivial, .inl undone⟩, undone⟩
  · show destination ∈ [source, destination]
    simp
  · rw [files_moved, if_neg (by simp), if_neg (by simp)]
    exact stable.holds.backup

theorem deleted {target : String}
    (stable : Stable start directory index (.delete target preimage) disk) :
    Stable start directory index (.delete target preimage) (disk.set (.canonical target) none) ∧
      (Planned.delete target preimage).Done (disk.set (.canonical target) none) := by
  have done : (Planned.delete target preimage).Done (disk.set (.canonical target) none) := by
    simp [Planned.Done, Disk.canonical]
  refine ⟨⟨stable.agrees.set touches_target _, ?_, trivial, .inr done⟩, done⟩
  rw [files_set, if_neg (by simp)]
  exact stable.holds.backup

theorem Planned.Holds.staged {target : String} {preimage : Option Bytes} {postimage : Bytes}
    (holds : (Planned.replace target preimage postimage).Holds disk directory index) {hash : String}
    (found : (disk.files (.asset directory (.stage index))).map workspace.platform.contentHash = some hash) :
    disk.files (.asset directory (.stage index)) = some postimage := by
  rcases holds.supplied with ⟨_, stage⟩ | ⟨_, stage | stage⟩
  · exact stage
  · rw [stage] at found
    cases found
  · exact stage

theorem applyOperation_triple (regular : ∀ path ∈ planned.paths, workspace.Regular path) (apart : planned.paths.Nodup)
    (holds : planned.Holds start directory index)
    (ready : total → Ready lock expectedNonce directory planned start) :
    Triple total (fun disk => disk = start)
      (applyOperation workspace lock expectedNonce directory (planned.operation workspace.platform) index)
      (fun _ disk => Stable start directory index planned disk ∧
        applied workspace disk (planned.operation workspace.platform) = true)
      (Stable start directory index planned) := by
  have begin : Stable start directory index planned start := ⟨Agrees.refl _ _, holds⟩
  have stopped : ∀ disk, disk = start → Stable start directory index planned disk := fun disk same => same ▸ begin
  refine Triple.bind (Triple.check_keep stopped ?_) fun snapshot => Triple.of_each fun disk seen => ?_
  · intro must disk same
    rw [same]
    exact ⟨_, snapshot_exists regular holds (ready must).opened (ready must).present⟩
  obtain ⟨same, seen⟩ := seen
  rw [same] at seen ⊢
  rw [snapshot_of_ok regular holds seen]
  by_cases found : applied workspace start (planned.operation workspace.platform) = true
  · have state : (planned.snapshot workspace start directory index).state = .postimagePresent := if_pos found
    rw [state]
    exact Triple.ret fun disk same => by rw [same]; exact ⟨begin, found⟩
  have state : (planned.snapshot workspace start directory index).state = .stagedPostimageAvailable := if_neg found
  have undone := Planned.undone_of_state holds.images state
  rw [state]
  cases planned with
  | replace target preimage postimage =>
    have stage : start.files (.asset directory (.stage index)) = some postimage := by
      rcases holds.supplied with ⟨_, stage⟩ | ⟨done, _⟩
      · exact stage
      · exact absurd (Planned.applied_of_done (show (Planned.replace target preimage postimage).Done start from done)) found
    refine replaceWithRetry_triple stopped (fun _ done => done.1) ?_ ?_
    · intro disk stable matched
      obtain ⟨stable, done⟩ := replaced stable (stable.holds.staged matched.source)
      exact ⟨stable, Planned.applied_of_done done⟩
    · intro must disk same
      rw [same]
      refine ⟨⟨?_, ?_⟩, ⟨rfl, (regular target (Planned.target_mem_paths _)).safeLeaf⟩, (ready must).fenced, by simp⟩
      · rw [stage]
        rfl
      · exact congrArg (Option.map _) undone
  | move source destination content =>
    have distinct : source ≠ destination := by
      intro same
      simp [Planned.paths, Planned.target, Planned.destination, same] at apart
    have arrival : destination ∈ (Planned.move source destination content).paths := by
      simp [Planned.paths, Planned.destination]
    refine replaceWithRetry_triple stopped (fun _ done => done.1) ?_ ?_
    · intro disk stable matched
      have present : disk.canonical source = some content := by
        rcases stable.holds.images with undone | done
        · exact undone.1
        · have hashed := matched.source
          rw [← Disk.canonical, done.1] at hashed
          cases hashed
      obtain ⟨stable, done⟩ := moved_forward distinct stable present
      exact ⟨stable, Planned.applied_of_done done⟩
    · intro must disk same
      rw [same]
      have facts := ready must
      have leaves := regular source (Planned.target_mem_paths _)
      have enters := regular destination arrival
      refine ⟨⟨?_, ?_⟩, ⟨leaves.safeLeaf, enters.safeLeaf⟩, facts.fenced, fun _ => ⟨?_, ?_⟩⟩
      · rw [← Disk.canonical, undone.1]
        rfl
      · rw [← Disk.canonical, undone.2]
        rfl
      · exact revalidateOwnedFile_canonical leaves (facts.opened source (Planned.target_mem_paths _))
          fun _ => by rw [undone.1]; rfl
      · exact revalidateOwnedFile_canonical enters (facts.opened destination arrival) (by simp)
  | delete target preimage =>
    refine unlinkWithRetry_triple stopped (fun _ done => done.1) ?_ ?_ ?_
    · intro disk stable gone
      exact ⟨stable, Planned.applied_of_done (show (Planned.delete target preimage).Done disk from gone)⟩
    · intro disk stable _
      obtain ⟨stable, done⟩ := deleted stable
      exact ⟨stable, Planned.applied_of_done done⟩
    · intro must disk same
      rw [same]
      have facts := ready must
      have leaves := regular target (Planned.target_mem_paths _)
      refine ⟨leaves.safeLeaf, facts.fenced, fun _ => ?_, fun content present => ?_⟩
      · exact revalidateOwnedFile_canonical leaves (facts.opened target (Planned.target_mem_paths _)) (by simp)
      · rw [← Disk.canonical, undone] at present
        rw [Option.some.inj present]

/-! The backward direction. -/

/-- A replacement that is being rolled back has its postimage staged again. -/
def Planned.Stocked (disk : Disk) (directory : String) (index : Nat) : Planned → Prop
  | .replace _ _ postimage => disk.files (.asset directory (.stage index)) = some postimage
  | _ => True

/-- The preimages are back and the postimage is kept for another attempt. -/
structure Planned.Restored (disk : Disk) (directory : String) (index : Nat) (planned : Planned) : Prop where
  undone : planned.Undone disk
  stocked : planned.Stocked disk directory index

def Kept (start disk : Disk) : Prop := ∀ path, disk.canonical path = start.canonical path

theorem nestedContext_congr (kept : Kept start disk) (path : String) :
    nestedContext disk path = nestedContext start path := by
  unfold nestedContext
  exact congrArg (contextMarkers path).any (funext fun marker => by rw [kept marker])

theorem Ready.congr (ready : Ready lock expectedNonce directory planned start) (kept : Kept start disk)
    (locks : disk.lock = start.lock) (directories : disk.directories = start.directories) :
    Ready lock expectedNonce directory planned disk := by
  refine ⟨⟨locks.trans ready.fenced.held, ready.fenced.owner⟩, fun path member => ?_, ?_⟩
  · rw [nestedContext_congr kept]
    exact ready.opened path member
  · rw [directories]
    exact ready.present

/-- Writing a scratch file of the operation changes none of its images. -/
theorem Stable.scratch (stable : Stable start directory index planned disk)
    (own : name = .rollback index ∨ ∃ token, name = .rebuild index token) (content : Option Bytes) :
    Stable start directory index planned (disk.set (.asset directory name) content) := by
  have outside : ∀ file, (∀ token, file ≠ .asset directory (.rebuild index token)) →
      file ≠ .asset directory (.rollback index) →
      (disk.set (.asset directory name) content).files file = disk.files file := by
    intro file rebuild rollback
    refine set_files_other disk ?_ _
    rcases own with same | ⟨token, same⟩
    · rw [same]
      exact rollback
    · rw [same]
      exact rebuild token
  have canonical : ∀ path, (disk.set (.asset directory name) content).canonical path = disk.canonical path :=
    fun path => outside (.canonical path) (by simp) (by simp)
  refine ⟨stable.agrees.set (touches_asset (.inr (.inr own))) _, ?_, ?_, ?_⟩
  · rw [outside _ (by simp) (by simp)]
    exact stable.holds.backup
  · have supplied := stable.holds.supplied
    cases planned with
    | replace target preimage postimage =>
      rw [Planned.Supplied] at supplied ⊢
      rw [canonical, outside (.asset directory (.stage index)) (by simp) (by simp)]
      exact supplied
    | move source destination content => trivial
    | delete target preimage => trivial
  · rw [Planned.undone_congr fun path _ => canonical path, Planned.done_congr fun path _ => canonical path]
    exact stable.holds.images

theorem Planned.Stocked.scratch (stocked : planned.Stocked disk directory index)
    (own : name = .rollback index ∨ ∃ token, name = .rebuild index token) (content : Option Bytes) :
    planned.Stocked (disk.set (.asset directory name) content) directory index := by
  cases planned with
  | replace target preimage postimage =>
    rw [Stocked] at stocked ⊢
    rw [files_set, if_neg]
    · exact stocked
    · rcases own with same | ⟨token, same⟩ <;> rw [same] <;> simp
  | move source destination content => trivial
  | delete target preimage => trivial

theorem restored (single : planned.destination = none)
    (recorded : planned.preimage = some preimage) (stable : Stable start directory index planned disk)
    (stocked : planned.Stocked disk directory index)
    (copied : disk.files (.asset directory (.rollback index)) = some preimage) :
    Stable start directory index planned
        (disk.moved (.asset directory (.rollback index)) (.canonical planned.target)) ∧
      planned.Restored (disk.moved (.asset directory (.rollback index)) (.canonical planned.target)) directory index := by
  have back : (disk.moved (.asset directory (.rollback index)) (.canonical planned.target)).canonical planned.target =
      some preimage := by
    rw [Disk.canonical, files_moved, if_neg (by simp), if_pos rfl, copied]
  have backup : (disk.moved (.asset directory (.rollback index)) (.canonical planned.target)).files
      (.asset directory (.backup index)) = planned.preimage := by
    rw [files_moved, if_neg (by simp), if_neg (by simp)]
    exact stable.holds.backup
  have agrees := stable.agrees.moved (touches_asset (.inr (.inr (.inl rfl)))) touches_target
  cases planned with
  | replace target known postimage =>
    rw [Planned.preimage] at recorded
    rw [Planned.Stocked] at stocked
    have stage : (disk.moved (.asset directory (.rollback index)) (.canonical target)).files
        (.asset directory (.stage index)) = some postimage := by
      rw [files_moved, if_neg (by simp), if_neg (by simp)]
      exact stocked
    have undone : (Planned.replace target known postimage).Undone
        (disk.moved (.asset directory (.rollback index)) (.canonical target)) := by
      rw [Planned.Undone, recorded]
      exact back
    exact ⟨⟨agrees, backup, .inl ⟨undone, stage⟩, .inl undone⟩, undone, stage⟩
  | move source destination content => cases single
  | delete target known =>
    rw [Planned.preimage] at recorded
    have undone : (Planned.delete target known).Undone
        (disk.moved (.asset directory (.rollback index)) (.canonical target)) := by
      rw [Planned.Undone, recorded]
      exact back
    exact ⟨⟨agrees, backup, trivial, .inl undone⟩, undone, trivial⟩

theorem readRegularFile_ok {file : File} {content : Bytes} :
    readRegularFile workspace disk file = .ok content ↔ file.safe workspace = true ∧ disk.files file = some content := by
  unfold readRegularFile
  by_cases safe : file.safe workspace = true
  · rw [if_pos safe]
    cases disk.files file <;> simp [safe]
  · rw [if_neg safe]
    simp [safe]

/-- Nothing but scratch files changed, and the postimage is staged. -/
structure Backing (start : Disk) (directory : String) (index : Nat) (planned : Planned) (disk : Disk) : Prop where
  stable : Stable start directory index planned disk
  stocked : planned.Stocked disk directory index
  kept : Kept start disk

theorem Kept.set_asset (kept : Kept start disk) (name : AssetName) (content : Option Bytes) :
    Kept start (disk.set (.asset directory name) content) := by
  intro path
  rw [Disk.canonical, files_set, if_neg (by simp)]
  exact kept path

theorem Ready.of_stable (ready : Ready lock expectedNonce directory planned start)
    (stable : Stable start directory index planned disk) (kept : Kept start disk) :
    Ready lock expectedNonce directory planned disk := ready.congr kept stable.agrees.lock stable.agrees.directories

theorem restoreBackup_triple {expectedTarget : Option String} {revalidate : Bool}
    (regular : ∀ path ∈ planned.paths, workspace.Regular path) (single : planned.destination = none)
    (recorded : planned.preimage = some preimage)
    (ready : total → Ready lock expectedNonce directory planned start ∧
      (start.canonical planned.target).map workspace.platform.contentHash = expectedTarget) :
    Triple total (Backing start directory index planned)
      (restoreBackup workspace directory index planned.target (workspace.platform.contentHash preimage) expectedTarget lock
        expectedNonce revalidate)
      (fun _ disk => Stable start directory index planned disk ∧ planned.Restored disk directory index)
      (Stable start directory index planned) := by
  have backup : ∀ disk, Backing start directory index planned disk →
      disk.files (.asset directory (.backup index)) = some preimage :=
    fun disk backing => recorded ▸ backing.stable.holds.backup
  unfold restoreBackup
  refine Triple.bind (Triple.check_keep (fun _ backing => backing.stable) ?_) fun content => ?_
  · intro _ disk backing
    exact ⟨preimage, readRegularFile_ok.mpr ⟨rfl, backup disk backing⟩⟩
  refine Triple.bind (Triple.ensure_keep (fun _ seen => seen.1.stable) ?_) fun _ => ?_
  · intro _ disk seen
    have same := (readRegularFile_ok.mp seen.2).2
    rw [backup disk seen.1, Option.some.injEq] at same
    rw [same, beq_self_eq_true]
  apply Triple.of_each
  intro disk seen
  have same := (readRegularFile_ok.mp seen.1.2).2
  rw [backup disk seen.1.1, Option.some.injEq] at same
  have backing := seen.1.1
  subst same
  -- An attempt that failed left the copy in place or consumed it.
  let copied (disk : Disk) := disk.files (.asset directory (.rollback index)) = some preimage
  let spent (disk : Disk) := disk.files (.asset directory (.rollback index)) = none
  have wrote : Triple total (fun now => now = disk)
      (writeFsynced (.asset directory (.rollback index)) preimage false)
      (fun _ now => Backing start directory index planned now ∧ copied now)
      (Stable start directory index planned) := by
    refine writeFsynced_triple (fun _ same => same ▸ backing.stable) (fun _ never => by cases never) ?_ ?_
    · intro now same
      rw [same]
      exact ⟨⟨backing.stable.scratch (.inl rfl) _, backing.stocked.scratch (.inl rfl) _, backing.kept.set_asset _ _⟩,
        set_files_self ..⟩
    · intro now same content
      rw [same]
      exact backing.stable.scratch (.inl rfl) _
  have moved : Triple total (fun now => Backing start directory index planned now ∧ copied now)
      (replaceWithRetry workspace (.asset directory (.rollback index)) (.canonical planned.target) lock expectedNonce
        (workspace.platform.contentHash preimage) expectedTarget revalidate)
      (fun _ now => (Stable start directory index planned now ∧ planned.Restored now directory index) ∧ spent now)
      (fun now => (Stable start directory index planned now ∧ planned.Stocked now directory index) ∧
        (copied now ∨ spent now)) := by
    refine replaceWithRetry_triple ?_ ?_ ?_ ?_
    · intro now holds
      exact ⟨⟨holds.1.stable, holds.1.stocked⟩, .inl holds.2⟩
    · intro now done
      exact ⟨⟨done.1.1, done.1.2.stocked⟩, .inr done.2⟩
    · intro now holds matched
      have there : copied now := by
        rcases holds.2 with there | gone
        · exact there
        · have hashed := matched.source
          rw [show now.files _ = none from gone] at hashed
          cases hashed
      refine ⟨restored single recorded holds.1.1 holds.1.2 there, ?_⟩
      show (now.moved _ _).files _ = none
      rw [files_moved, if_pos rfl]
    · intro must now holds
      have facts := (ready must).1.of_stable holds.1.stable holds.1.kept
      have leaf := regular planned.target (Planned.target_mem_paths _)
      refine ⟨⟨?_, ?_⟩, ⟨rfl, leaf.safeLeaf⟩, facts.fenced, fun _ => ⟨?_, ?_⟩⟩
      · rw [show now.files _ = _ from holds.2]
        rfl
      · rw [← Disk.canonical, holds.1.kept]
        exact (ready must).2
      · refine revalidateOwnedFile_asset facts.present ?_
        rw [show now.files _ = _ from holds.2]
        rfl
      · exact revalidateOwnedFile_canonical leaf (facts.opened _ (Planned.target_mem_paths _)) (by simp)
  exact Triple.bind wrote fun _ => moved.weaken (fun _ => id) (fun _ _ done => done.1) fun _ cut => cut.1.1

section
variable {target : String} {preimage : Option Bytes} {postimage : Bytes}

/-- The postimage is staged again under a scratch name and moved into place. -/
theorem publishRebuiltPostimage_triple
    (holds : (Planned.replace target preimage postimage).Holds start directory index)
    (done : start.canonical target = some postimage)
    (ready : total → Fenced lock expectedNonce start ∧ start.files (.asset directory (.rebuild index token)) = none) :
    Triple total (fun disk => disk = start)
      (publishRebuiltPostimage workspace directory index token postimage (workspace.platform.contentHash postimage) lock
        expectedNonce)
      (fun _ => Backing start directory index (.replace target preimage postimage))
      (Stable start directory index (.replace target preimage postimage)) := by
  let steady (disk : Disk) := Stable start directory index (.replace target preimage postimage) disk ∧ Kept start disk
  let built (disk : Disk) := disk.files (.asset directory (.rebuild index token)) = some postimage
  let spent (disk : Disk) := disk.files (.asset directory (.rebuild index token)) = none
  have begin : steady start := ⟨⟨Agrees.refl _ _, holds⟩, fun _ => rfl⟩
  have scratch : ∀ disk content, steady disk → steady (disk.set (.asset directory (.rebuild index token)) content) :=
    fun disk content now => ⟨now.1.scratch (.inr ⟨token, rfl⟩) content, now.2.set_asset _ content⟩
  have backing_of : ∀ disk, steady disk → disk.files (.asset directory (.stage index)) = some postimage →
      Backing start directory index (.replace target preimage postimage) disk :=
    fun disk now stage => ⟨now.1, stage, now.2⟩
  have wrote : Triple total (fun disk => disk = start)
      (writeFsynced (.asset directory (.rebuild index token)) postimage true)
      (fun _ disk => steady disk ∧ built disk) steady := by
    refine writeFsynced_triple (fun _ same => same ▸ begin) ?_ ?_ ?_
    · intro must _ disk same
      rw [same]
      exact (ready must).2
    · intro disk same
      rw [same]
      exact ⟨scratch start _ begin, set_files_self ..⟩
    · intro disk same content
      rw [same]
      exact scratch start _ begin
  have guarded : ∀ {must : Prop} {before stop : Disk → Prop}, (∀ disk, before disk → stop disk) →
      (must → ∀ disk, before disk → built disk ∧ Fenced lock expectedNonce disk) →
      Triple must before
        (do
          .check fun disk => requireSourceHash workspace disk (.asset directory (.rebuild index token))
            (workspace.platform.contentHash postimage)
          verifyLock lock expectedNonce)
        (fun _ disk => before disk ∧ (disk.files (.asset directory (.rebuild index token))).isSome = true) stop := by
    intro must before stop stopped passes
    refine Triple.bind (Triple.check_keep stopped ?_) fun _ => ?_
    · intro need disk now
      refine ⟨(), requireSourceHash_ok.mpr ⟨rfl, ?_⟩⟩
      rw [show disk.files _ = _ from (passes need disk now).1]
      rfl
    · refine (verifyLock_triple (fun disk seen => stopped disk seen.1)
        fun need disk seen => (passes need disk seen.1).2).ensuring ?_
      intro _ disk seen
      refine ⟨seen.1, ?_⟩
      obtain ⟨content, present, _⟩ := Option.map_eq_some_iff.mp (requireSourceHash_ok.mp seen.2).2
      rw [present]
      rfl
  have moved : Triple total (fun disk => steady disk ∧ built disk)
      (systemReplaceWithRetry workspace (.asset directory (.rebuild index token)) (.asset directory (.stage index))
        (do
          .check fun disk => requireSourceHash workspace disk (.asset directory (.rebuild index token))
            (workspace.platform.contentHash postimage)
          verifyLock lock expectedNonce))
      (fun _ disk => Backing start directory index (.replace target preimage postimage) disk ∧ spent disk)
      (fun disk => steady disk ∧ (built disk ∨ spent disk)) := by
    refine systemReplaceWithRetry_triple (fun disk seen => ⟨seen.1, .inl seen.2⟩) ?_ (fun _ _ => id)
      (guarded (fun disk seen => ⟨seen.1, .inl seen.2⟩) ?_) (guarded (fun _ => id) fun never => never.elim) ?_
    · intro disk finished
      exact ⟨⟨finished.1.stable, finished.1.kept⟩, .inr finished.2⟩
    · intro must disk seen
      exact ⟨seen.2, ⟨seen.1.1.agrees.lock.trans (ready must).1.held, (ready must).1.owner⟩⟩
    · intro disk now _ present
      have there : built disk := by
        rcases now.2 with there | gone
        · exact there
        · rw [show disk.files _ = none from gone] at present
          cases present
      have stage : (disk.moved (.asset directory (.rebuild index token)) (.asset directory (.stage index))).files
          (.asset directory (.stage index)) = some postimage := by
        rw [files_moved, if_neg (by simp), if_pos rfl]
        exact there
      have kept : Kept start (disk.moved (.asset directory (.rebuild index token)) (.asset directory (.stage index))) :=
        (now.1.2.set_asset _ _).set_asset _ _
      have stays := (kept target).trans done
      refine ⟨⟨⟨?_, ?_, .inr ⟨stays, .inr stage⟩, .inr stays⟩, stage, kept⟩, ?_⟩
      · exact now.1.1.agrees.moved (touches_asset (.inr (.inr (.inr ⟨token, rfl⟩)))) (touches_asset (.inl rfl))
      · rw [files_moved, if_neg (by simp), if_neg (by simp)]
        exact now.1.1.holds.backup
      · show (disk.moved _ _).files _ = none
        rw [files_moved, if_pos rfl]
  have attempted : Triple total (fun disk => steady disk ∧ built disk)
      (do
        let hash ← .check fun disk => hashOptionalFile workspace disk (.asset directory (.rebuild index token))
        .ensure (hash == some (workspace.platform.contentHash postimage))
          (.staging "A reconstructed postimage failed hash verification")
        systemReplaceWithRetry workspace (.asset directory (.rebuild index token)) (.asset directory (.stage index))
          (do
            .check fun disk => requireSourceHash workspace disk (.asset directory (.rebuild index token))
              (workspace.platform.contentHash postimage)
            verifyLock lock expectedNonce))
      (fun _ => Backing start directory index (.replace target preimage postimage)) steady := by
    refine Triple.bind (Triple.check_keep (fun _ now => now.1) fun _ disk _ => ⟨_, hashOptionalFile_of rfl⟩) fun hash => ?_
    refine Triple.bind (Triple.ensure_keep (fun _ seen => seen.1.1) ?_) fun _ => ?_
    · intro _ disk seen
      have same := (hashOptionalFile_ok.mp seen.2).2
      rw [show disk.files _ = _ from seen.1.2] at same
      rw [← same, Option.map_some, beq_self_eq_true]
    · exact moved.weaken (fun _ seen => seen.1.1) (fun _ _ finished => finished.1) fun _ now => now.1
  have swept : Triple total (Backing start directory index (.replace target preimage postimage))
      (unlinkMissingOk (.asset directory (.rebuild index token)))
      (fun _ => Backing start directory index (.replace target preimage postimage))
      (Backing start directory index (.replace target preimage postimage)) := by
    refine unlinkMissingOk_triple (fun _ => id) (fun _ => id) ?_ fun _ backing _ => backing
    intro disk backing
    have now := scratch disk none ⟨backing.stable, backing.kept⟩
    exact ⟨now.1, backing.stocked.scratch (.inr ⟨token, rfl⟩) _, now.2⟩
  have cleaned : Triple False steady (unlinkMissingOk (.asset directory (.rebuild index token))) (fun _ => steady) steady :=
    unlinkMissingOk_triple (fun _ => id) (fun _ => id) (fun disk now => scratch disk none now) fun _ now _ => now
  have whole := Triple.bind wrote fun _ => Triple.cleanup attempted (fun _ => id)
    (fun _ => swept.stopping fun _ backing => ⟨backing.stable, backing.kept⟩) cleaned
  exact whole.stopping fun _ now => now.1

theorem preservePostimage_triple
    (holds : (Planned.replace target preimage postimage).Holds start directory index)
    (ready : total → Fenced lock expectedNonce start ∧ start.files (.asset directory (.rebuild index token)) = none)
    (safe : workspace.safeLeaf target = true) :
    Triple total (fun disk => disk = start)
      (preservePostimage workspace lock expectedNonce directory token index target (workspace.platform.contentHash postimage)
        ((start.files (.asset directory (.stage index))).map workspace.platform.contentHash))
      (fun _ => Backing start directory index (.replace target preimage postimage))
      (Stable start directory index (.replace target preimage postimage)) := by
  have begin : Stable start directory index (.replace target preimage postimage) start := ⟨Agrees.refl _ _, holds⟩
  unfold preservePostimage
  by_cases stage : start.files (.asset directory (.stage index)) = some postimage
  · rw [stage, Option.map_some, if_pos rfl]
    apply Triple.ret
    intro disk same
    rw [same]
    exact ⟨begin, stage, fun _ => rfl⟩
  · have done : start.canonical target = some postimage ∧ start.files (.asset directory (.stage index)) = none := by
      rcases holds.supplied with ⟨_, staged⟩ | ⟨done, gone | staged⟩
      · exact absurd staged stage
      · exact ⟨done, gone⟩
      · exact absurd staged stage
    rw [done.2, Option.map_none, if_neg (by simp)]
    have read : readRegularFile workspace start (.canonical target) = .ok postimage :=
      readRegularFile_ok.mpr ⟨safe, done.1⟩
    refine Triple.bind (Triple.check_keep (fun _ same => same ▸ begin) fun _ disk same => ⟨_, same ▸ read⟩) fun content => ?_
    apply Triple.of_each
    intro disk seen
    obtain ⟨same, found⟩ := seen
    rw [same, read] at found
    cases found
    rw [same, beq_self_eq_true]
    exact publishRebuiltPostimage_triple holds done.1 ready

theorem removeCreated_triple {target : String} {postimage : Bytes}
    (ready : total → Ready lock expectedNonce directory (.replace target none postimage) start ∧
      workspace.safeLeaf target = true ∧ applied workspace start ((Planned.replace target none postimage).operation workspace.platform) = true) :
    Triple total (Backing start directory index (.replace target none postimage))
      (unlinkWithRetry workspace (.canonical target) (workspace.platform.contentHash postimage) lock expectedNonce false)
      (fun _ disk => Stable start directory index (.replace target none postimage) disk ∧
        (Planned.replace target none postimage).Restored disk directory index)
      (Stable start directory index (.replace target none postimage)) := by
  let armed (disk : Disk) := Stable start directory index (.replace target none postimage) disk ∧
    disk.files (.asset directory (.stage index)) = some postimage
  have removed : Triple total (Backing start directory index (.replace target none postimage))
      (unlinkWithRetry workspace (.canonical target) (workspace.platform.contentHash postimage) lock expectedNonce false)
      (fun _ disk => Stable start directory index (.replace target none postimage) disk ∧
        (Planned.replace target none postimage).Restored disk directory index) armed := by
    refine unlinkWithRetry_triple (fun _ backing => ⟨backing.stable, backing.stocked⟩)
      (fun _ done => ⟨done.1, done.2.stocked⟩) ?_ ?_ ?_
    · intro disk now gone
      exact ⟨now.1, gone, now.2⟩
    · intro disk now _
      have gone : (disk.set (.canonical target) none).canonical target = none := set_files_self ..
      have stage : (disk.set (.canonical target) none).files (.asset directory (.stage index)) = some postimage := by
        rw [files_set, if_neg (by simp)]
        exact now.2
      refine ⟨⟨now.1.agrees.set touches_target _, ?_, .inl ⟨gone, stage⟩, .inl gone⟩, gone, stage⟩
      rw [files_set, if_neg (by simp)]
      exact now.1.holds.backup
    · intro must disk backing
      obtain ⟨facts, safe, found⟩ := ready must
      refine ⟨safe, (facts.of_stable backing.stable backing.kept).fenced, by simp, fun content present => ?_⟩
      simp only [applied, Planned.operation, ValidatedOperation.target, beq_iff_eq] at found
      rw [← Disk.canonical, backing.kept] at present
      rw [present, Option.map_some, Option.some.injEq] at found
      exact found
  exact removed.stopping fun _ now => now.1

theorem rollbackOperation_triple (regular : ∀ path ∈ planned.paths, workspace.Regular path) (apart : planned.paths.Nodup)
    (holds : planned.Holds start directory index)
    (ready : total → Ready lock expectedNonce directory planned start ∧
      start.files (.asset directory (.rebuild index token)) = none) :
    Triple total (fun disk => disk = start)
      (rollbackOperation workspace lock expectedNonce directory token (planned.operation workspace.platform) index)
      (fun _ disk => Stable start directory index planned disk ∧ planned.Restored disk directory index)
      (Stable start directory index planned) := by
  have begin : Stable start directory index planned start := ⟨Agrees.refl _ _, holds⟩
  have stopped : ∀ disk, disk = start → Stable start directory index planned disk := fun disk same => same ▸ begin
  unfold rollbackOperation
  refine Triple.bind (Triple.check_keep stopped ?_) fun snapshot => Triple.of_each fun disk seen => ?_
  · intro must disk same
    rw [same]
    exact ⟨_, snapshot_exists regular holds (ready must).1.opened (ready must).1.present⟩
  obtain ⟨same, seen⟩ := seen
  rw [same] at seen ⊢
  rw [snapshot_of_ok regular holds seen]
  by_cases found : applied workspace start (planned.operation workspace.platform) = true
  · have state : (planned.snapshot workspace start directory index).state = .postimagePresent := if_pos found
    rw [state]
    have leaves := regular planned.target (Planned.target_mem_paths planned)
    cases planned with
    | replace target preimage postimage =>
      have preserved : Triple total (fun disk => disk = start) _ _ _ :=
        preservePostimage_triple holds (fun must => ⟨(ready must).1.fenced, (ready must).2⟩) leaves.safeLeaf
      cases preimage with
      | none =>
        refine Triple.bind preserved fun _ => removeCreated_triple ?_
        exact fun must => ⟨(ready must).1, leaves.safeLeaf, found⟩
      | some preimage =>
        refine Triple.bind preserved fun _ => restoreBackup_triple regular rfl rfl ?_
        intro must
        refine ⟨(ready must).1, ?_⟩
        exact beq_iff_eq.mp (show ((start.canonical target).map workspace.platform.contentHash ==
          some (workspace.platform.contentHash postimage)) = true from found)
    | move source destination content =>
      have distinct : source ≠ destination := by
        intro same
        simp [Planned.paths, Planned.target, Planned.destination, same] at apart
      have arrival : destination ∈ (Planned.move source destination content).paths := by
        simp [Planned.paths, Planned.destination]
      have done := Planned.done_of_applied holds.images trivial found
      refine replaceWithRetry_triple stopped (fun _ done => done.1) ?_ ?_
      · intro disk stable matched
        have present : disk.canonical destination = some content := by
          rcases stable.holds.images with undone | done
          · have hashed := matched.source
            rw [← Disk.canonical, undone.2] at hashed
            cases hashed
          · exact done.2
        obtain ⟨stable, undone⟩ := moved_back distinct stable present
        exact ⟨stable, undone, trivial⟩
      · intro must disk same
        rw [same]
        have facts := (ready must).1
        have enters := regular destination arrival
        refine ⟨⟨?_, ?_⟩, ⟨enters.safeLeaf, leaves.safeLeaf⟩, facts.fenced, fun _ => ⟨?_, ?_⟩⟩
        · rw [← Disk.canonical, done.2]
          rfl
        · rw [← Disk.canonical, done.1]
          rfl
        · exact revalidateOwnedFile_canonical enters (facts.opened destination arrival) fun _ => by rw [done.2]; rfl
        · exact revalidateOwnedFile_canonical leaves (facts.opened source (Planned.target_mem_paths _)) (by simp)
    | delete target preimage =>
      have done := Planned.done_of_applied holds.images trivial found
      refine (restoreBackup_triple regular rfl rfl fun must => ⟨(ready must).1, congrArg (Option.map _) done⟩).strengthen
        (fun disk same => ?_)
      rw [same]
      exact ⟨begin, trivial, fun _ => rfl⟩
  · have state : (planned.snapshot workspace start directory index).state = .stagedPostimageAvailable := if_neg found
    have undone := Planned.undone_of_state holds.images state
    rw [state]
    apply Triple.ret
    intro disk same
    rw [same]
    refine ⟨begin, undone, ?_⟩
    cases planned with
    | replace target preimage postimage =>
      rcases holds.supplied with ⟨_, stage⟩ | ⟨done, _⟩
      · exact stage
      · exact absurd (Planned.applied_of_done (show (Planned.replace target preimage postimage).Done start from done)) found
    | move source destination content => trivial
    | delete target preimage => trivial

end

end
end Workctx.Staging
