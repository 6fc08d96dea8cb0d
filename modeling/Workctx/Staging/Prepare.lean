import Workctx.Staging.Publication

/-! What `prepare` leaves wherever it stops: the canonical files are untouched, and the intent
is absent, only reserved, or complete. -/

namespace Workctx.Staging
open Workctx.Durable Workctx.Text Workctx.Domain List

def Assets (directory : String) (file : File) : Prop := ∃ name, file = .asset directory name

def Only (file other : File) : Prop := other = file

structure Staged (start : Disk) (directory : String) (handled : List (ResolvedOperation × Nat)) (disk : Disk) : Prop where
  agrees : Agrees (Assets directory) start disk
  backups : ∀ entry ∈ handled, disk.files (.asset directory (.backup entry.2)) = (entry.1.planned start).preimage
  stocked : ∀ entry ∈ handled, (entry.1.planned start).Stocked disk directory entry.2
  free : ∀ index, (∀ entry ∈ handled, entry.2 ≠ index) →
    disk.files (.asset directory (.backup index)) = none ∧ disk.files (.asset directory (.stage index)) = none
  unwritten : disk.files (.asset directory .completeIntent) = none

section
variable {workspace : Workspace} {total : Prop} {start disk other : Disk} {directory : String} {index : Nat}

theorem canonical_not_asset {path : String} : ¬Assets directory (.canonical path) := by
  intro inside
  obtain ⟨name, same⟩ := inside
  cases same

theorem intent_not_asset : ¬Assets directory .intent := by
  intro inside
  obtain ⟨name, same⟩ := inside
  cases same

theorem Agrees.kept (agrees : Agrees (Assets directory) start disk) : Kept start disk :=
  fun path => agrees.files (.canonical path) canonical_not_asset

theorem Agrees.only (file : File) (content : Option Bytes) : Agrees (Only file) disk (disk.set file content) :=
  (Agrees.refl (Only file) disk).set (show Only file file from rfl) content

theorem parentsPlain_congr (kept : Kept start disk) (path : String) :
    parentsPlain workspace disk path = parentsPlain workspace start path := by
  unfold parentsPlain
  rw [nestedContext_congr kept]

theorem copyOptionalRegularFile_triple {source target : File} (free : start.files target = none)
    (safe : total → source.safe workspace = true) :
    Triple total (fun disk => disk = start) (copyOptionalRegularFile workspace source target)
      (fun hash disk => hash = (start.files source).map workspace.platform.contentHash ∧
        Agrees (Only target) start disk ∧ disk.files target = start.files source)
      (Agrees (Only target) start) := by
  have begin : ∀ disk, disk = start → Agrees (Only target) start disk := by
    intro disk same
    rw [same]
    exact Agrees.refl _ _
  unfold copyOptionalRegularFile
  refine Triple.bind (Triple.ensure_keep begin fun must _ _ => safe must) fun _ => ?_
  have looked : Triple total (fun disk => disk = start ∧ source.safe workspace = true)
      (.observe fun disk => disk.files source : Action (Option Bytes)) (fun content disk => disk = start ∧ content = start.files source)
      (Agrees (Only target) start) := Triple.observe fun disk seen => ⟨seen.1, by rw [seen.1]⟩
  refine Triple.bind looked fun content => ?_
  cases content with
  | none =>
    apply Triple.ret
    intro disk seen
    rw [seen.1, ← seen.2]
    exact ⟨rfl, Agrees.refl _ _, free⟩
  | some payload =>
    have wrote : Triple total (fun disk => disk = start ∧ some payload = start.files source) (writeFsynced target payload true)
        (fun _ disk => some payload = start.files source ∧ Agrees (Only target) start disk ∧
          disk.files target = some payload)
        (Agrees (Only target) start) := by
      refine writeFsynced_triple (fun disk seen => begin disk seen.1) ?_ ?_ ?_
      · intro _ _ disk seen
        rw [seen.1]
        exact free
      · intro disk seen
        rw [seen.1]
        exact ⟨seen.2, Agrees.only _ _, set_files_self ..⟩
      · intro disk seen content
        rw [seen.1]
        exact Agrees.only _ _
    refine Triple.bind wrote fun _ => Triple.ret fun disk seen => ?_
    rw [← seen.1]
    exact ⟨rfl, seen.2⟩

variable {operation : ResolvedOperation} {resolved : List ResolvedOperation} {pre : Disk → Prop}

theorem backupPreimage_triple
    (free : start.files (.asset directory (.backup index)) = none) (present : operation.Present start)
    (safe : total → workspace.safeLeaf operation.target = true) :
    Triple total (fun disk => disk = start) (backupPreimage workspace directory operation index)
      (fun hash disk => hash = (operation.planned start).preimage.map workspace.platform.contentHash ∧
        Agrees (Only (.asset directory (.backup index))) start disk ∧
        disk.files (.asset directory (.backup index)) = (operation.planned start).preimage)
      (Agrees (Only (.asset directory (.backup index))) start) := by
  rw [ResolvedOperation.planned_preimage present]
  unfold backupPreimage
  refine Triple.bind (copyOptionalRegularFile_triple free safe) fun hash => ?_
  refine Triple.bind (Triple.ensure_keep (fun disk seen => seen.2.1) ?_) fun _ => ?_
  · intro _ disk seen
    rw [seen.1]
    cases operation with
    | replace target content => rfl
    | move source destination =>
      have found := present.1
      rw [Disk.canonical] at found
      rw [Option.isSome_map, ResolvedOperation.target, found, Bool.or_true]
    | delete target =>
      have found : (start.canonical target).isSome = true := present
      rw [Disk.canonical] at found
      rw [Option.isSome_map, ResolvedOperation.target, found, Bool.or_true]
  cases hash with
  | none => exact Triple.ret fun disk seen => seen.1
  | some hash =>
    refine Triple.bind (Triple.check_keep (fun disk seen => seen.1.2.1) ?_) fun _ => Triple.ret fun disk seen => seen.1.1
    intro _ disk seen
    refine ⟨(), demand_ok.mpr ?_⟩
    rw [seen.1.2.2, seen.1.1, beq_self_eq_true]

theorem stagePostimage_triple {planned : Planned}
    (same : planned = operation.planned other) (free : start.files (.asset directory (.stage index)) = none) :
    Triple total (fun disk => disk = start) (stagePostimage workspace directory operation index)
      (fun _ disk => Agrees (Only (.asset directory (.stage index))) start disk ∧ planned.Stocked disk directory index)
      (Agrees (Only (.asset directory (.stage index))) start) := by
  have begin : ∀ disk, disk = start → Agrees (Only (.asset directory (.stage index))) start disk := by
    intro disk same
    rw [same]
    exact Agrees.refl _ _
  rw [same]
  cases operation with
  | replace target content =>
    have wrote : Triple total (fun disk => disk = start) (writeFsynced (.asset directory (.stage index)) content true)
        (fun _ disk => Agrees (Only (.asset directory (.stage index))) start disk ∧
          disk.files (.asset directory (.stage index)) = some content)
        (Agrees (Only (.asset directory (.stage index))) start) := by
      refine writeFsynced_triple begin (fun _ _ disk same => same ▸ free) ?_ ?_
      · intro disk same
        rw [same]
        exact ⟨Agrees.only _ _, set_files_self ..⟩
      · intro disk same content
        rw [same]
        exact Agrees.only _ _
    refine Triple.bind wrote fun _ => ?_
    refine (Triple.check_keep (fun disk seen => seen.1) ?_).forget
    intro _ disk seen
    refine ⟨(), demand_ok.mpr ?_⟩
    rw [seen.2, Option.map_some, beq_self_eq_true]
  | move source destination => exact Triple.ret fun disk same => ⟨begin disk same, trivial⟩
  | delete target => exact Triple.ret fun disk same => ⟨begin disk same, trivial⟩

theorem targetOf_planned (present : operation.Present start) :
    targetOf workspace directory index operation ((operation.planned start).preimage.map workspace.platform.contentHash) =
      (operation.planned start).intentTarget workspace.platform directory index := by
  cases operation with
  | replace target content => cases found : start.canonical target <;>
      simp [targetOf, ResolvedOperation.planned, Planned.intentTarget, Planned.preimage, found]
  | move source destination => rfl
  | delete target => rfl

theorem Agrees.widen {region wider : File → Prop} (agrees : Agrees region start disk)
    (inside : ∀ file, region file → wider file) : Agrees wider start disk :=
  ⟨fun file outside => agrees.files file fun within => outside (inside file within), agrees.directories, agrees.lock,
    agrees.ledger⟩

theorem assets_of_only {name : AssetName} : ∀ file, Only (.asset directory name) file → Assets directory file :=
  fun _ same => ⟨name, same⟩

def Passes (workspace : Workspace) (start : Disk) (operation : ResolvedOperation) : Prop :=
  ∀ path ∈ operation.paths, parentsPlain workspace start path = true ∧ workspace.sameVolume path = true

theorem prepareOperation_triple {handled : List (ResolvedOperation × Nat)}
    (new : ∀ entry ∈ handled, entry.2 ≠ index) (present : operation.Present start)
    (placed : ∀ path ∈ operation.paths, Placed workspace start path) (passes : total → Passes workspace start operation) :
    Triple total (Staged start directory handled) (prepareOperation workspace directory operation index)
      (fun target disk => Staged start directory (handled ++ [(operation, index)]) disk ∧
        target = (operation.planned start).intentTarget workspace.platform directory index ∧
        Passes workspace start operation)
      (Agrees (Assets directory) start) := by
  unfold prepareOperation
  refine Triple.bind (Triple.forEach_check _ (fun disk staged => staged.agrees) ?_) fun _ => Triple.of_each fun first seen => ?_
  · intro must disk staged path member
    refine demand_ok.mpr ?_
    rw [parentsPlain_congr staged.agrees.kept]
    exact (passes must path member).1
  obtain ⟨staged, checked⟩ := seen
  obtain ⟨noBackup, noStage⟩ := staged.free index new
  have leaf := (placed operation.target mem_cons_self).safeLeaf
  have canonical : ∀ path, first.canonical path = start.canonical path := staged.agrees.kept
  have plannedSame : operation.planned first = operation.planned start := by
    cases operation <;> simp only [ResolvedOperation.planned, canonical]
  have presentFirst : operation.Present first := by
    cases operation with
    | replace target content => trivial
    | move source destination =>
      show (first.canonical source).isSome = true ∧ first.canonical destination = none
      rw [canonical, canonical]
      exact present
    | delete target =>
      show (first.canonical target).isSome = true
      rw [canonical]
      exact present
  have backed : Triple total _ (backupPreimage workspace directory operation index) _ _ :=
    backupPreimage_triple noBackup presentFirst fun _ => leaf
  rw [plannedSame] at backed
  refine Triple.bind (backed.stopping fun disk agrees =>
    staged.agrees.trans (agrees.widen assets_of_only)) fun hash => Triple.of_each fun second found => ?_
  obtain ⟨sameHash, kept, backup⟩ := found
  have stillFree : second.files (.asset directory (.stage index)) = none := by
    rw [kept.files _ (by intro same; cases same)]
    exact noStage
  have agreesSecond := staged.agrees.trans (kept.widen assets_of_only)
  have stocked : Triple total _ (stagePostimage workspace directory operation index) _ _ :=
    stagePostimage_triple (rfl : operation.planned start = _) stillFree
  refine Triple.bind (stocked.stopping fun disk agrees =>
    agreesSecond.trans (agrees.widen assets_of_only)) fun _ => ?_
  refine Triple.bind (Triple.ensure_keep (fun disk now => agreesSecond.trans (now.1.widen assets_of_only)) ?_) fun _ => ?_
  · intro must _ _
    exact all_eq_true.mpr fun path member => (passes must path member).2
  refine Triple.ret fun disk now => ?_
  obtain ⟨⟨moved, stock⟩, volumes⟩ := now
  have outside : ∀ name, name ≠ .backup index → name ≠ .stage index →
      disk.files (.asset directory name) = first.files (.asset directory name) := by
    intro name notBackup notStage
    rw [moved.files _ (by intro same; cases same; exact notStage rfl),
      kept.files _ (by intro same; cases same; exact notBackup rfl)]
  have backupKept : disk.files (.asset directory (.backup index)) = (operation.planned start).preimage := by
    rw [moved.files _ (by intro same; cases same)]
    exact backup
  refine ⟨⟨agreesSecond.trans (moved.widen assets_of_only), ?_, ?_, ?_, ?_⟩, ?_, ?_⟩
  · intro entry member
    rcases mem_append.mp member with earlier | same
    · rw [outside _ (by simp [new entry earlier]) (by simp)]
      exact staged.backups entry earlier
    · rw [mem_singleton.mp same]
      exact backupKept
  · intro entry member
    rcases mem_append.mp member with earlier | same
    · have there := staged.stocked entry earlier
      obtain ⟨other, place⟩ := entry
      cases other with
      | replace target content =>
        show disk.files (.asset directory (.stage place)) = some content
        rw [outside _ (by simp) (by simp [new _ earlier])]
        exact there
      | move source destination => trivial
      | delete target => trivial
    · rw [mem_singleton.mp same]
      exact stock
  · intro place apart
    have different : place ≠ index := fun same => apart (operation, index) (by simp) same.symm
    rw [outside _ (by simp [different]) (by simp), outside _ (by simp) (by simp [different])]
    exact staged.free place fun entry member => apart entry (mem_append_left _ member)
  · rw [outside _ (by simp) (by simp)]
    exact staged.unwritten
  · rw [sameHash]
    exact targetOf_planned present
  · intro path member
    refine ⟨?_, all_eq_true.mp volumes path member⟩
    rw [← parentsPlain_congr staged.agrees.kept]
    exact demand_ok.mp (checked path member)

theorem intentTargets_eq (platform : Platform) (operations : List Planned) (place : Nat) :
    intentTargets platform directory place operations =
      (operations.zipIdx place).map fun entry => entry.1.intentTarget platform directory entry.2 := by
  induction operations generalizing place with
  | nil => rfl
  | cons planned rest ih => rw [intentTargets, zipIdx_cons, map_cons, ih]

structure Requested (workspace : Workspace) (start : Disk) (resolved : List ResolvedOperation) : Prop where
  placed : ∀ operation ∈ resolved, ∀ path ∈ operation.paths, Placed workspace start path
  present : ∀ operation ∈ resolved, operation.Present start

structure Recorded (workspace : Workspace) (start : Disk) (directory : String) (handled : List (ResolvedOperation × Nat))
    (targets : List IntentTarget) (disk : Disk) : Prop where
  staged : Staged start directory handled disk
  recorded : targets =
    handled.map fun entry => (entry.1.planned start).intentTarget workspace.platform directory entry.2
  passed : ∀ entry ∈ handled, Passes workspace start entry.1

theorem new_of_split {before after : List (ResolvedOperation × Nat)}
    {entry : ResolvedOperation × Nat} (split : resolved.zipIdx = before ++ entry :: after) :
    entry.1 ∈ resolved ∧ ∀ other ∈ before, other.2 ≠ entry.2 := by
  have indices : (resolved.zipIdx.map Prod.snd).Nodup := by
    rw [zipIdx_map_snd]
    exact nodup_range' 1
  rw [split, map_append, map_cons] at indices
  refine ⟨fst_mem_of_mem_zipIdx (show entry ∈ resolved.zipIdx by rw [split]; simp), fun other earlier same => ?_⟩
  exact (nodup_append.mp indices).2.2 _ (mem_map_of_mem earlier) _ mem_cons_self same

theorem recordedStep_triple (requested : Requested workspace start resolved)
    (passes : total → ∀ operation ∈ resolved, Passes workspace start operation)
    {before after : List (ResolvedOperation × Nat)} {entry : ResolvedOperation × Nat} {targets : List IntentTarget}
    (split : resolved.zipIdx = before ++ entry :: after) :
    Triple total (Recorded workspace start directory before targets)
      (prepareOperation workspace directory entry.1 entry.2)
      (fun target => Recorded workspace start directory (before ++ [entry]) (targets ++ [target]))
      (Agrees (Assets directory) start) := by
  obtain ⟨inside, new⟩ := new_of_split split
  refine Triple.of_each fun disk now => ?_
  refine (prepareOperation_triple new (requested.present _ inside) (requested.placed _ inside)
    fun must => passes must _ inside).weaken (fun disk' same => same ▸ now.staged) ?_ fun _ => id
  intro target later done
  refine ⟨done.1, ?_, ?_⟩
  · rw [now.recorded, done.2.1, map_append]
    rfl
  · intro other earlier
    rcases mem_append.mp earlier with earlier | same
    · exact now.passed other earlier
    · rw [mem_singleton.mp same]
      exact done.2.2

theorem recorded_nil (fresh : ∀ name, start.files (.asset directory name) = none) :
    Recorded workspace start directory [] [] start :=
  ⟨⟨Agrees.refl _ _, by simp, by simp, fun _ _ => ⟨fresh _, fresh _⟩, fresh _⟩, rfl, by simp⟩

theorem stageRecord_triple {lock transactionId nonce : String}
    (requested : Requested workspace start resolved) (fresh : ∀ name, start.files (.asset directory name) = none)
    (passes : total → (∀ operation ∈ resolved, Passes workspace start operation) ∧ Fenced lock (some nonce) start) :
    Triple total (fun disk => disk = start)
      (stageRecord workspace lock transactionId nonce directory resolved)
      (fun record disk => Staged start directory resolved.zipIdx disk ∧
        record = ⟨transactionId, nonce, intentTargets workspace.platform directory 0
          (resolved.map (ResolvedOperation.planned start))⟩ ∧
        (∀ operation ∈ resolved, Passes workspace start operation) ∧ Fenced lock (some nonce) start)
      (Agrees (Assets directory) start) := by
  have collected : Triple total (Recorded workspace start directory [] [])
      (.collect (fun entry => prepareOperation workspace directory entry.1 entry.2) resolved.zipIdx)
      (Recorded workspace start directory resolved.zipIdx) (Agrees (Assets directory) start) :=
    Triple.collect _ fun before entry after targets split =>
      recordedStep_triple requested (fun must => (passes must).1) split
  have targets : resolved.zipIdx.map (fun entry => (entry.1.planned start).intentTarget workspace.platform directory entry.2) =
      intentTargets workspace.platform directory 0 (resolved.map (ResolvedOperation.planned start)) := by
    rw [intentTargets_eq, zipIdx_map, map_map]
    rfl
  unfold stageRecord
  refine Triple.bind (collected.strengthen ?_) fun found => ?_
  · intro disk same
    rw [same]
    exact recorded_nil fresh
  refine Triple.bind (verifyLock_keep (fun disk now => now.staged.agrees) fun must disk now => ?_) fun _ =>
    Triple.ret fun disk now => ?_
  · have fence := (passes must).2
    exact ⟨now.staged.agrees.lock.trans fence.held, fence.owner⟩
  obtain ⟨now, fence⟩ := now
  refine ⟨now.staged, by rw [now.recorded, targets], fun operation member => ?_, ?_⟩
  · obtain ⟨place, found⟩ := getElem?_of_mem member
    exact now.passed (operation, place) (mem_zipIdx_iff_getElem?.mpr found)
  · exact ⟨now.staged.agrees.lock ▸ fence.held, fence.owner⟩

/-! The window between the reservation and the rename. -/

def Publishing (directory : String) (file : File) : Prop := file = .asset directory .completeIntent ∨ file = .intent

inductive IntentFile (bytes : Bytes) (disk : Disk) : Prop where
  | absent (found : disk.files .intent = none)
  | reserved (found : disk.files .intent = some [])
  | complete (found : disk.files .intent = some bytes)

/-- The complete record waits beside the reserved name, or has taken it. -/
def Window (directory : String) (bytes : Bytes) (disk : Disk) : Prop :=
  (disk.files (.asset directory .completeIntent) = some bytes ∧ disk.files .intent = some []) ∨
    (disk.files (.asset directory .completeIntent) = none ∧ disk.files .intent = some bytes)

theorem publishRename_triple {bytes : Bytes} :
    Triple total
      (fun disk => Agrees (Publishing directory) start disk ∧
        disk.files (.asset directory .completeIntent) = some bytes ∧ disk.files .intent = some [])
      (systemReplaceWithRetry workspace (.asset directory .completeIntent) .intent (.ret ()))
      (fun _ disk => Agrees (Publishing directory) start disk ∧ disk.files .intent = some bytes)
      (fun disk => Agrees (Publishing directory) start disk ∧ Window directory bytes disk) := by
  have renamed : Triple total
      (fun disk => Agrees (Publishing directory) start disk ∧
        disk.files (.asset directory .completeIntent) = some bytes ∧ disk.files .intent = some [])
      (systemReplaceWithRetry workspace (.asset directory .completeIntent) .intent (.ret ()))
      (fun _ disk => Agrees (Publishing directory) start disk ∧
        disk.files (.asset directory .completeIntent) = none ∧ disk.files .intent = some bytes)
      (fun disk => Agrees (Publishing directory) start disk ∧ Window directory bytes disk) := by
    have moved : ∀ disk, Agrees (Publishing directory) start disk → disk.files (.asset directory .completeIntent) = some bytes →
        Agrees (Publishing directory) start (disk.moved (.asset directory .completeIntent) .intent) ∧
          (disk.moved (.asset directory .completeIntent) .intent).files (.asset directory .completeIntent) = none ∧
          (disk.moved (.asset directory .completeIntent) .intent).files .intent = some bytes := by
      intro disk agrees waiting
      refine ⟨agrees.moved (.inl rfl) (.inr rfl), ?_, ?_⟩
      · rw [files_moved, if_pos rfl]
      · rw [files_moved, if_neg (by simp), if_pos rfl]
        exact waiting
    have again : Triple False (fun disk => Agrees (Publishing directory) start disk ∧ Window directory bytes disk)
        (replaceFile (.asset directory .completeIntent) .intent)
        (fun _ disk => Agrees (Publishing directory) start disk ∧
          disk.files (.asset directory .completeIntent) = none ∧ disk.files .intent = some bytes)
        (fun disk => Agrees (Publishing directory) start disk ∧ Window directory bytes disk) := by
      refine replaceFile_triple (fun _ => id) (fun disk now => ⟨now.1, .inr now.2⟩) (fun never => never.elim) ?_
      intro disk now present
      rcases now.2 with waiting | taken
      · exact moved disk now.1 waiting.1
      · rw [taken.1] at present
        cases present
    refine Triple.retry workspace.positive (Triple.ret fun _ => id) ?_ again
    · refine replaceFile_triple (fun disk now => ⟨now.1, .inl now.2⟩) (fun disk now => ⟨now.1, .inr now.2⟩) ?_ ?_
      · intro _ disk now
        rw [now.2.1]
        rfl
      · intro disk now _
        exact moved disk now.1 now.2.1
  exact renamed.ensuring (fun _ _ now => ⟨now.1, now.2.2⟩)

theorem Window.intentFile {bytes : Bytes} (window : Window directory bytes disk) : IntentFile bytes disk := by
  rcases window with waiting | taken
  · exact .reserved waiting.2
  · exact .complete taken.2

theorem publishIntent_triple {record : IntentRecord} (absent : start.files .intent = none)
    (unwritten : start.files (.asset directory .completeIntent) = none) :
    Triple total (fun disk => disk = start) (publishIntent workspace directory record)
      (fun _ disk => Agrees (Publishing directory) start disk ∧ disk.files .intent = some (encodeIntent record))
      (fun disk => Agrees (Publishing directory) start disk ∧ IntentFile (encodeIntent record) disk) := by
  have begin : Agrees (Publishing directory) start start := Agrees.refl _ _
  have written : ∀ content, Agrees (Publishing directory) start (start.set (.asset directory .completeIntent) content) :=
    fun content => begin.set (.inl rfl) content
  have still : ∀ content, (start.set (.asset directory .completeIntent) content).files .intent = none := by
    intro content
    rw [files_set, if_neg (by simp)]
    exact absent
  have wrote : Triple total (fun disk => disk = start)
      (writeFsynced (.asset directory .completeIntent) (encodeIntent record) true)
      (fun _ disk => Agrees (Publishing directory) start disk ∧ disk.files .intent = none ∧
        disk.files (.asset directory .completeIntent) = some (encodeIntent record))
      (fun disk => Agrees (Publishing directory) start disk ∧ IntentFile (encodeIntent record) disk) := by
    refine writeFsynced_triple ?_ (fun _ _ disk same => same ▸ unwritten) ?_ ?_
    · intro disk same
      rw [same]
      exact ⟨begin, .absent absent⟩
    · intro disk same
      rw [same]
      exact ⟨written _, still _, set_files_self ..⟩
    · intro disk same content
      rw [same]
      exact ⟨written _, .absent (still _)⟩
  unfold publishIntent
  refine Triple.bind wrote fun _ => Triple.bind (Triple.check_keep (fun disk now => ⟨now.1, .absent now.2.1⟩) ?_) fun _ => ?_
  · intro _ disk now
    exact ⟨(), demand_ok.mpr (by rw [now.2.1]; rfl)⟩
  refine Triple.bind (Triple.perform fun disk now => ?_) fun _ =>
    publishRename_triple.stopping fun disk now => ⟨now.1, now.2.intentFile⟩
  obtain ⟨⟨agrees, free, waiting⟩, _⟩ := now
  have reserved : (reserveStep.effect disk).files .intent = some [] := set_files_self ..
  have kept : (reserveStep.effect disk).files (.asset directory .completeIntent) = some (encodeIntent record) := by
    show (disk.set .intent (some [])).files _ = _
    rw [files_set, if_neg (by simp)]
    exact waiting
  have agrees' : Agrees (Publishing directory) start (reserveStep.effect disk) := agrees.set (.inr rfl) _
  exact ⟨⟨agrees', kept, reserved⟩, ⟨agrees, .absent free⟩, ⟨agrees', .reserved reserved⟩, fun _ => ⟨agrees, .absent free⟩⟩

/-! The whole of `prepare`. -/

/-- The tests `prepare` makes before its directory exists. -/
structure Admissible (workspace : Workspace) (disk : Disk) (lock transactionId nonce : String)
    (operations : List StagedOperation) (resolved : List ResolvedOperation) : Prop where
  identified : transactionId ≠ ""
  nonceValid : isNonce nonce = true
  owner : nonce = lock
  absent : disk.files .intent = none
  nonempty : operations ≠ []
  resolution : resolveOperations workspace disk operations = .ok resolved

theorem scratch_triple : Triple total pre (.perform scratchStep : Action Unit) (fun _ => pre) pre :=
  Triple.perform fun _ holds => ⟨holds, holds, holds, fun _ => holds⟩

theorem ensureRuntimeDirectories_triple :
    Triple total pre ensureRuntimeDirectories (fun _ => pre) pre :=
  Triple.bind scratch_triple fun _ => Triple.bind scratch_triple fun _ => scratch_triple

theorem accept_triple {lock transactionId nonce : String} {operations : List StagedOperation}
    (admissible : total → ∃ resolved, Admissible workspace start lock transactionId nonce operations resolved) :
    Triple total (fun disk => disk = start) (accept workspace lock transactionId nonce operations)
      (fun resolved disk => disk = start ∧ Admissible workspace start lock transactionId nonce operations resolved)
      (fun disk => disk = start) := by
  unfold accept
  refine Triple.bind (Triple.ensure_keep (fun _ => id) fun must _ _ => ?_) fun _ => ?_
  · obtain ⟨resolved, facts⟩ := admissible must
    exact bne_iff_ne.mpr facts.identified
  refine Triple.bind (Triple.ensure_keep (fun _ now => now.1) fun must _ _ => ?_) fun _ => ?_
  · obtain ⟨resolved, facts⟩ := admissible must
    exact facts.nonceValid
  refine Triple.bind (Triple.ensure_keep (fun _ now => now.1.1) fun must _ _ => ?_) fun _ => ?_
  · obtain ⟨resolved, facts⟩ := admissible must
    exact beq_iff_eq.mpr facts.owner
  refine Triple.bind (ensureRuntimeDirectories_triple.stopping fun _ now => now.1.1.1) fun _ => ?_
  refine Triple.bind (Triple.check_keep (fun _ now => now.1.1.1) fun must disk now => ?_) fun _ => ?_
  · obtain ⟨resolved, facts⟩ := admissible must
    rw [now.1.1.1]
    exact ⟨(), demand_ok.mpr (Option.isNone_iff_eq_none.mpr facts.absent)⟩
  refine Triple.bind (Triple.ensure_keep (fun _ now => now.1.1.1.1) fun must _ _ => ?_) fun _ => ?_
  · obtain ⟨resolved, facts⟩ := admissible must
    simpa using facts.nonempty
  refine (Triple.check_keep (fun _ now => now.1.1.1.1.1) fun must disk now => ?_).ensuring ?_
  · obtain ⟨resolved, facts⟩ := admissible must
    rw [now.1.1.1.1.1]
    exact ⟨resolved, facts.resolution⟩
  · intro resolved disk now
    obtain ⟨⟨⟨⟨⟨⟨same, identified⟩, nonceValid⟩, owner⟩, absent⟩, nonempty⟩, resolution⟩ := now
    rw [same] at absent resolution
    refine ⟨same, bne_iff_ne.mp identified, nonceValid, beq_iff_eq.mp owner, ?_, by simpa using nonempty, resolution⟩
    exact Option.isNone_iff_eq_none.mp (demand_ok.mp absent)

theorem makeDirectory_triple (free : total → start.directories directory = false) :
    Triple total (fun disk => disk = start) (makeDirectory directory)
      (fun _ disk => disk = (mkdirStep directory).effect start)
      (fun disk => disk = start ∨ disk = (mkdirStep directory).effect start) := by
  refine Triple.bind (Triple.check_keep (fun _ same => .inl same) fun must disk same => ?_) fun _ => Triple.perform ?_
  · rw [same]
    exact ⟨(), demand_ok.mpr (by rw [free must]; rfl)⟩
  · intro disk now
    rw [now.1]
    exact ⟨rfl, .inl rfl, .inr rfl, fun _ => .inl rfl⟩

theorem removeOwnedDirectory_triple
    (swept : ∀ disk other, pre disk → (∀ file, ¬Assets directory file → other.files file = disk.files file) →
      other.lock = disk.lock → other.ledger = disk.ledger → pre other) :
    Triple total pre (removeOwnedDirectory directory) (fun _ => pre) pre := by
  have outside : ∀ (disk other : Disk), (∀ path, other.files (.canonical path) = disk.files (.canonical path)) →
      other.files .intent = disk.files .intent →
      (∀ owner name, owner ≠ directory → other.files (.asset owner name) = disk.files (.asset owner name)) →
      ∀ file, ¬Assets directory file → other.files file = disk.files file := by
    intro disk other canonical intent assets file away
    cases file with
    | canonical path => exact canonical path
    | intent => exact intent
    | asset owner name =>
      refine assets owner name fun same => away ⟨name, ?_⟩
      rw [same]
  have looked : Triple total pre (.observe fun disk => disk.directories directory : Action Bool) (fun _ => pre) pre :=
    Triple.observe fun _ => id
  refine Triple.bind looked fun present => ?_
  cases present with
  | false => exact Triple.ret fun _ => id
  | true =>
    refine Triple.perform fun disk holds => ?_
    have after : pre ((rmtreeStep directory).effect disk) := by
      refine swept disk _ holds (outside disk _ (fun _ => rfl) rfl fun owner name different => ?_) rfl rfl
      exact if_neg different
    refine ⟨after, holds, after, fun how => ?_⟩
    cases how with
    | written length => exact holds
    | kept keep =>
      refine swept disk _ holds (outside disk _ (fun _ => rfl) rfl fun owner name different => ?_) rfl rfl
      show (if _ then _ else _) = _
      rw [if_neg]
      simp [different]

/-- Where `prepare` may have stopped. -/
structure Interrupted (workspace : Workspace) (start : Disk) (lock transactionId nonce directory : String)
    (named : isTransactionDirectory directory = true) (operations : List StagedOperation) (disk : Disk) : Prop where
  kept : Kept start disk
  held : disk.lock = start.lock
  ledger : disk.ledger = start.ledger
  intent : disk.files .intent = none ∨
    ∃ resolved, ∃ admitted : Admitted workspace start lock transactionId nonce operations resolved,
      disk.files .intent = some [] ∨ (admitted.plan named).Prepared disk

section
variable {lock transactionId nonce : String} {operations : List StagedOperation} {resolved : List ResolvedOperation}
  {named : isTransactionDirectory directory = true}

theorem Admitted.plan_operations (admitted : Admitted workspace start lock transactionId nonce operations resolved) :
    (admitted.plan named).operations = resolved.map (ResolvedOperation.planned start) := rfl

theorem prepared_of_staged (admitted : Admitted workspace start lock transactionId nonce operations resolved)
    (staged : Staged ((mkdirStep directory).effect start) directory resolved.zipIdx disk)
    (published : Agrees (Publishing directory) disk other)
    (complete : other.files .intent = some (encodeIntent (admitted.plan named).record)) :
    (admitted.plan named).Prepared other := by
  have resolutions := resolveOperations_ok admitted.resolution
  have canonical : ∀ path, other.canonical path = start.canonical path := by
    intro path
    rw [Disk.canonical, published.files _ (by unfold Publishing; simp)]
    exact staged.agrees.kept path
  have entries : (admitted.plan named).operations.zipIdx =
      resolved.zipIdx.map fun entry => (entry.1.planned start, entry.2) := by
    rw [Admitted.plan_operations, zipIdx_map]
    rfl
  refine ⟨complete, ?_, ?_, ?_⟩
  · rw [published.directories, staged.agrees.directories]
    exact Function.update_self ..
  · intro entry member
    rw [entries] at member
    obtain ⟨origin, inside, same⟩ := mem_map.mp member
    rw [← same, published.files _ (by unfold Publishing; simp)]
    exact staged.backups origin inside
  · intro entry member
    rw [entries] at member
    obtain ⟨origin, inside, same⟩ := mem_map.mp member
    rw [← same]
    have present := resolutions.present origin.1 (fst_mem_of_mem_zipIdx inside)
    refine ⟨(Planned.undone_congr fun path _ => canonical path).mpr (ResolvedOperation.planned_undone present), ?_⟩
    have stocked := staged.stocked origin inside
    obtain ⟨operation, index⟩ := origin
    cases operation with
    | replace target content =>
      show other.files (.asset directory (.stage index)) = some content
      rw [published.files _ (by unfold Publishing; simp)]
      exact stocked
    | move source destination => trivial
    | delete target => trivial

theorem requested_of (resolutions : Resolutions workspace start [] operations resolved) :
    Requested workspace ((mkdirStep directory).effect start) resolved := by
  refine ⟨fun operation member path own => ?_, fun operation member => ?_⟩
  · have placed := resolutions.placed operation member path own
    exact ⟨placed.canonical, placed.resolves, placed.opened, placed.hasParent, placed.safeLeaf⟩
  · have present := resolutions.present operation member
    cases operation <;> exact present

/-- The rule of `prepare`. -/
theorem prepare_triple (named : isTransactionDirectory directory = true) (absent : start.files .intent = none)
    (fresh : ∀ name, start.files (.asset directory name) = none)
    (ready : total → start.directories directory = false ∧
      ∃ resolved, Admitted workspace start lock transactionId nonce operations resolved) :
    Triple total (fun disk => disk = start) (prepare workspace lock transactionId nonce directory operations)
      (fun record disk => ∃ resolved, ∃ admitted : Admitted workspace start lock transactionId nonce operations resolved,
        record = (admitted.plan named).record ∧ (admitted.plan named).Prepared disk ∧
        Interrupted workspace start lock transactionId nonce directory named operations disk)
      (Interrupted workspace start lock transactionId nonce directory named operations) := by
  let stopped := Interrupted workspace start lock transactionId nonce directory named operations
  have begin : stopped start := ⟨fun _ => rfl, rfl, rfl, .inl absent⟩
  have made : stopped ((mkdirStep directory).effect start) := ⟨fun _ => rfl, rfl, rfl, .inl absent⟩
  have admissible : total → ∃ resolved, Admissible workspace start lock transactionId nonce operations resolved := by
    intro must
    obtain ⟨_, resolved, facts⟩ := ready must
    exact ⟨resolved, facts.identified, facts.nonceValid, facts.leased.1, absent, facts.nonempty, facts.resolution⟩
  have beginning : ∀ disk, disk = start → stopped disk := by
    intro disk same
    rw [same]
    exact begin
  refine Triple.bind ((accept_triple admissible).stopping beginning)
    fun resolved => Triple.of_each fun disk now => ?_
  obtain ⟨same, facts⟩ := now
  rw [same]
  refine Triple.bind ((makeDirectory_triple fun must => (ready must).1).stopping ?_) fun _ => ?_
  · intro later reached
    rcases reached with same | same
    · rw [same]
      exact begin
    · rw [same]
      exact made
  have resolutions := resolveOperations_ok facts.resolution
  have requested : Requested workspace ((mkdirStep directory).effect start) resolved := requested_of resolutions
  have admitted_of : (∀ operation ∈ resolved, Passes workspace ((mkdirStep directory).effect start) operation) →
      Fenced lock (some nonce) ((mkdirStep directory).effect start) →
      Admitted workspace start lock transactionId nonce operations resolved := by
    intro passed fence
    refine ⟨facts.identified, facts.nonceValid, ⟨facts.owner, fence.held⟩, facts.nonempty, facts.resolution, ?_, ?_⟩
    · intro operation member path own
      exact (passed operation member path own).1
    · intro operation member path own
      exact (passed operation member path own).2
  have staging : ∀ disk, Agrees (Assets directory) ((mkdirStep directory).effect start) disk → stopped disk := by
    intro disk agrees
    refine ⟨agrees.kept, agrees.lock, agrees.ledger, .inl ?_⟩
    rw [agrees.files .intent intent_not_asset]
    exact absent
  have body : Triple total (fun disk => disk = (mkdirStep directory).effect start)
      (do
        let record ← stageRecord workspace lock transactionId nonce directory resolved
        publishIntent workspace directory record
        .ret record)
      (fun record disk => ∃ resolved, ∃ admitted : Admitted workspace start lock transactionId nonce operations resolved,
        record = (admitted.plan named).record ∧ (admitted.plan named).Prepared disk ∧ stopped disk)
      stopped := by
    refine Triple.bind ((stageRecord_triple requested fresh ?_).stopping staging) fun record =>
      Triple.of_each fun disk now => ?_
    · intro must
      obtain ⟨_, other, admitted⟩ := ready must
      have same : resolved = other := Except.ok.inj (facts.resolution.symm.trans admitted.resolution)
      rw [same]
      refine ⟨fun operation member path own => ⟨?_, admitted.volume operation member path own⟩, admitted.leased.2, ?_⟩
      · exact admitted.plain operation member path own
      · exact beq_iff_eq.mpr admitted.leased.1
    obtain ⟨staged, recorded, passed, fence⟩ := now
    have admitted := admitted_of passed fence
    have same : record = (admitted.plan named).record := recorded
    have intentFree : disk.files .intent = none := by
      rw [staged.agrees.files .intent intent_not_asset]
      exact absent
    have around : ∀ later, Agrees (Publishing directory) disk later →
        Kept start later ∧ later.lock = start.lock ∧ later.ledger = start.ledger := by
      intro later agrees
      refine ⟨fun path => ?_, agrees.lock.trans staged.agrees.lock, agrees.ledger.trans staged.agrees.ledger⟩
      rw [Disk.canonical, agrees.files _ (by unfold Publishing; simp)]
      exact staged.agrees.kept path
    have complete : ∀ later, Agrees (Publishing directory) disk later → later.files .intent = some (encodeIntent record) →
        (admitted.plan named).Prepared later := by
      intro later agrees found
      exact prepared_of_staged admitted staged agrees (same ▸ found)
    refine Triple.bind ((publishIntent_triple intentFree staged.unwritten).stopping ?_) fun _ =>
      Triple.ret fun later done => ?_
    · intro later done
      obtain ⟨kept, held, ledger⟩ := around later done.1
      refine ⟨kept, held, ledger, ?_⟩
      cases done.2 with
      | absent found => exact .inl found
      | reserved found => exact .inr ⟨resolved, admitted, .inl found⟩
      | complete found => exact .inr ⟨resolved, admitted, .inr (complete later done.1 found)⟩
    · obtain ⟨kept, held, ledger⟩ := around later done.1
      have prepared := complete later done.1 done.2
      exact ⟨resolved, admitted, same, prepared, kept, held, ledger, .inr ⟨resolved, admitted, .inr prepared⟩⟩
  refine Triple.handle body (fun _ => id) fun failure => ?_
  have cleared : Triple False stopped (removeUnpublished directory) (fun _ => stopped) stopped := by
    let idle (disk : Disk) := stopped disk ∧ disk.files .intent = none
    have looked : Triple False stopped (.observe fun disk => (disk.files .intent).isSome : Action Bool)
        (fun present disk => stopped disk ∧ (present = false → disk.files .intent = none)) stopped := by
      refine Triple.observe fun disk now => ⟨now, fun missing => ?_⟩
      exact Option.not_isSome_iff_eq_none.mp (by rw [missing]; decide)
    refine Triple.bind looked fun present => ?_
    cases present with
    | true => exact Triple.ret fun disk now => now.1
    | false =>
      have swept : Triple False idle (removeOwnedDirectory directory) (fun _ => idle) idle := by
        refine removeOwnedDirectory_triple fun disk other now files held ledger => ?_
        have intent : other.files .intent = none := by
          rw [files .intent intent_not_asset]
          exact now.2
        refine ⟨⟨fun path => ?_, held.trans now.1.held, ledger.trans now.1.ledger, .inl intent⟩, intent⟩
        rw [Disk.canonical, files _ canonical_not_asset]
        exact now.1.kept path
      exact swept.weaken (fun disk now => ⟨now.1, now.2 rfl⟩) (fun _ _ now => now.1) fun _ now => now.1
  exact Triple.bind cleared fun _ => Triple.raise fun disk now => ⟨now, id⟩

end

end
end Workctx.Staging
