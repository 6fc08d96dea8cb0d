import Workctx.Staging.Prepare

/-! One disturbed step of `prepare`: which step reserves the intent, and what an inspection
finds behind a crash or a failure at any position. -/

namespace Workctx.Staging
open Workctx.Durable Workctx.Text Workctx.Domain List

section
variable {workspace : Workspace} {start disk other : Disk} {directory : String} {index : Nat}
  {lock transactionId nonce : String} {operations : List StagedOperation} {resolved : List ResolvedOperation}

/-! The steps. -/

/-- The assets of an operation: a backup of an existing file, and the staged postimage of a
replacement. -/
def ResolvedOperation.assets (disk : Disk) (operation : ResolvedOperation) : Nat :=
  (if (disk.canonical operation.target).isSome then 1 else 0) + if operation.isReplace then 1 else 0

theorem writeFsynced_paced {file : File} {payload : Bytes} (free : disk.files file = none) :
    Paced (writeFsynced file payload true) disk 1 () (disk.set file (some payload)) := by
  have passes : demand (disk.files file).isNone Failure.fileExists = .ok () := by
    rw [free]
    rfl
  have joined : Paced ((Program.check fun disk => demand (disk.files file).isNone Failure.fileExists).bind fun _ =>
      (.perform (writeStep file payload) : Action Unit)) disk (0 + 1) () ((writeStep file payload).effect disk) :=
    Paced.bind (Paced.check passes) (.perform (writeStep file payload) disk)
  exact joined

theorem copyOptionalRegularFile_takes {source target : File} (safe : source.safe workspace = true)
    (free : disk.files target = none) :
    Takes (copyOptionalRegularFile workspace source target) disk (if (disk.files source).isSome then 1 else 0) := by
  refine Takes.ensure_bind safe (Takes.observe_bind ?_)
  cases disk.files source with
  | none => exact Takes.ret _
  | some payload =>
    show Takes ((writeFsynced target payload true).bind fun _ => .ret (some (workspace.platform.contentHash payload))) disk (1 + 0)
    exact Takes.paced_bind (writeFsynced_paced free) (Takes.ret _)

variable {operation : ResolvedOperation} {fault : Fault Torn Failure}

theorem backupPreimage_takes (safe : workspace.safeLeaf operation.target = true)
    (free : disk.files (.asset directory (.backup index)) = none) (present : operation.Present disk) :
    Takes (backupPreimage workspace directory operation index) disk
      (if (disk.canonical operation.target).isSome then 1 else 0) := by
  have copied : Takes (copyOptionalRegularFile workspace (.canonical operation.target) (.asset directory (.backup index)))
      disk (if (disk.canonical operation.target).isSome then 1 else 0) := copyOptionalRegularFile_takes safe free
  suffices whole : Takes (backupPreimage workspace directory operation index) disk
      ((if (disk.canonical operation.target).isSome then 1 else 0) + 0) from whole
  refine Takes.bind copied (copyOptionalRegularFile_triple free fun (_ : True) => safe) rfl fun hash after facts => ?_
  obtain ⟨same, _, copy⟩ := facts
  have accepted : (operation.isReplace || hash.isSome) = true := by
    rw [same]
    cases operation with
    | replace target content => rfl
    | move source destination =>
      rw [Option.isSome_map]
      exact present.1
    | delete target =>
      rw [Option.isSome_map]
      exact present
  refine Takes.ensure_bind accepted ?_
  cases hash with
  | none => exact Takes.ret _
  | some hash =>
    have verified : demand ((after.files (.asset directory (.backup index))).map workspace.platform.contentHash == some hash)
        (.staging "A staged preimage failed hash verification") = .ok () := by
      refine demand_ok.mpr ?_
      rw [copy, ← same, beq_self_eq_true]
    exact Takes.check_bind verified (Takes.ret _)

theorem stagePostimage_takes (free : disk.files (.asset directory (.stage index)) = none) :
    Takes (stagePostimage workspace directory operation index) disk (if operation.isReplace then 1 else 0) := by
  cases operation with
  | replace target content =>
    suffices whole : Takes (stagePostimage workspace directory (.replace target content) index) disk (1 + 0) from whole
    refine Takes.paced_bind (writeFsynced_paced free) (Takes.check (demand_ok.mpr ?_))
    rw [set_files_self, Option.map_some, beq_self_eq_true]
  | move source destination => exact Takes.ret _
  | delete target => exact Takes.ret _

theorem prepareOperation_takes {handled : List (ResolvedOperation × Nat)}
    (staged : Staged start directory handled disk) (new : ∀ entry ∈ handled, entry.2 ≠ index)
    (present : operation.Present start) (placed : ∀ path ∈ operation.paths, Placed workspace start path)
    (passes : Passes workspace start operation) :
    Takes (prepareOperation workspace directory operation index) disk (operation.assets start) := by
  obtain ⟨noBackup, noStage⟩ := staged.free index new
  have leaf := (placed operation.target mem_cons_self).safeLeaf
  have canonical : ∀ path, disk.canonical path = start.canonical path := staged.agrees.kept
  have presentNow : operation.Present disk := by
    cases operation with
    | replace target content => trivial
    | move source destination =>
      show (disk.canonical source).isSome = true ∧ disk.canonical destination = none
      rw [canonical, canonical]
      exact present
    | delete target =>
      show (disk.canonical target).isSome = true
      rw [canonical]
      exact present
  have parents : ∀ path ∈ operation.paths, requirePlainParentChain workspace disk path = .ok () := by
    intro path member
    refine demand_ok.mpr ?_
    rw [parentsPlain_congr staged.agrees.kept]
    exact (passes path member).1
  have backed : Takes (backupPreimage workspace directory operation index) disk
      (if (disk.canonical operation.target).isSome then 1 else 0) := backupPreimage_takes leaf noBackup presentNow
  rw [canonical] at backed
  have whole : Takes (prepareOperation workspace directory operation index) disk
      (0 + ((if (start.canonical operation.target).isSome then 1 else 0) + ((if operation.isReplace then 1 else 0) + 0))) := by
    refine Takes.paced_bind (Paced.forEach_check _ parents) ?_
    refine Takes.bind backed (backupPreimage_triple noBackup presentNow fun (_ : True) => leaf) rfl fun hash after facts => ?_
    have stillFree : after.files (.asset directory (.stage index)) = none := by
      rw [facts.2.1.files _ (by intro same; cases same)]
      exact noStage
    have stocked : Triple True _ (stagePostimage workspace directory operation index) _ _ :=
      stagePostimage_triple (rfl : operation.planned start = _) stillFree
    refine Takes.bind (stagePostimage_takes stillFree) stocked rfl fun _ _ _ => ?_
    refine Takes.ensure_bind ?_ (Takes.ret _)
    exact all_eq_true.mpr fun path member => (passes path member).2
  rwa [Nat.zero_add, Nat.add_zero] at whole

theorem stageRecord_takes (requested : Requested workspace start resolved)
    (fresh : ∀ name, start.files (.asset directory name) = none)
    (passes : ∀ operation ∈ resolved, Passes workspace start operation) (fence : Fenced lock (some nonce) start) :
    Takes (stageRecord workspace lock transactionId nonce directory resolved) start
      (sumSteps (resolved.map (ResolvedOperation.assets start))) := by
  have step : ∀ before entry after targets, resolved.zipIdx = before ++ entry :: after →
      Triple True (Recorded workspace start directory before targets)
        (prepareOperation workspace directory entry.1 entry.2)
        (fun target => Recorded workspace start directory (before ++ [entry]) (targets ++ [target]))
        (Agrees (Assets directory) start) :=
    fun before entry after targets split => recordedStep_triple requested (fun _ => passes) split
  have collected : Takes
      (.collect (fun entry => prepareOperation workspace directory entry.1 entry.2) resolved.zipIdx) start
      (sumSteps (resolved.zipIdx.map fun entry => entry.1.assets start)) := by
    refine Takes.collect _ (recorded_nil fresh) step fun before entry after targets disk split now => ?_
    obtain ⟨inside, new⟩ := new_of_split split
    exact prepareOperation_takes now.staged new (requested.present _ inside) (requested.placed _ inside) (passes _ inside)
  have counted : (resolved.zipIdx.map fun entry => entry.1.assets start) = resolved.map (ResolvedOperation.assets start) := by
    calc resolved.zipIdx.map (fun entry => entry.1.assets start)
        = (resolved.zipIdx.map Prod.fst).map (ResolvedOperation.assets start) := by
          rw [map_map]
          rfl
      _ = resolved.map (ResolvedOperation.assets start) := by rw [zipIdx_map_fst]
  rw [counted] at collected
  suffices whole : Takes (stageRecord workspace lock transactionId nonce directory resolved) start
      (sumSteps (resolved.map (ResolvedOperation.assets start)) + 0) from whole
  refine Takes.bind collected (Triple.collect _ step) (recorded_nil fresh) fun targets disk now => ?_
  have fenced : Fenced lock (some nonce) disk := ⟨now.staged.agrees.lock.trans fence.held, fence.owner⟩
  exact Takes.check_bind (fenced_iff.mpr fenced) (Takes.ret _)

theorem ensureRuntimeDirectories_paced : Paced ensureRuntimeDirectories start 3 () start := by
  suffices whole : Paced ensureRuntimeDirectories start (1 + (1 + 1)) () start from whole
  refine Paced.bind (.perform scratchStep start) ?_
  exact Paced.bind (.perform scratchStep start) (.perform scratchStep start)

theorem accept_paced (admissible : Admissible workspace start lock transactionId nonce operations resolved) :
    Paced (accept workspace lock transactionId nonce operations) start 3 resolved start := by
  have absent : demand (start.files .intent).isNone
      (.recoveryRequired "A staged-write intent already requires recovery") = .ok () := by
    rw [admissible.absent]
    rfl
  have some : (!operations.isEmpty) = true := by simpa using admissible.nonempty
  suffices whole : Paced (accept workspace lock transactionId nonce operations) start
      (0 + (0 + (0 + (3 + (0 + (0 + 0)))))) resolved start from whole
  refine Paced.bind (.ensure _ (bne_iff_ne.mpr admissible.identified)) ?_
  refine Paced.bind (.ensure _ admissible.nonceValid) ?_
  refine Paced.bind (.ensure _ (beq_iff_eq.mpr admissible.owner)) ?_
  refine Paced.bind ensureRuntimeDirectories_paced ?_
  refine Paced.bind (.check absent) ?_
  exact Paced.bind (.ensure _ some) (.check admissible.resolution)

theorem makeDirectory_paced (free : start.directories directory = false) :
    Paced (makeDirectory directory) start 1 () ((mkdirStep directory).effect start) := by
  suffices whole : Paced (makeDirectory directory) start (0 + 1) () ((mkdirStep directory).effect start) from whole
  refine Paced.bind (.check (demand_ok.mpr ?_)) (.perform (mkdirStep directory) start)
  rw [free]
  rfl

/-! The window. -/

inductive Fate where
  | absent
  | reserved
  | complete
deriving DecidableEq

/-- The number of durable steps before the reservation: the directories of the staging area and
of the transaction, the assets, and the complete record under its temporary name. -/
def reservation (start : Disk) (resolved : List ResolvedOperation) : Nat :=
  4 + (sumSteps (resolved.map (ResolvedOperation.assets start)) + 1)

/-- The fate of the intent file when one step is disturbed. -/
def fate (maxAttempts reserving position : Nat) (fault : Fault Torn Failure) : Fate :=
  if position < reserving then .absent
  else if position = reserving then if fault.landed then .reserved else .absent
  else if position = reserving + 1 then
    if fault.landed || (fault.passing isPermission && decide (1 < maxAttempts)) then .complete else .reserved
  else .complete

def Fate.Found (disk : Disk) : Fate → Prop
  | .absent => disk.files .intent = none
  | .reserved => disk.files .intent = some []
  | .complete => ∃ content, disk.files .intent = some content ∧ content ≠ []

theorem removeUnpublished_intent (failure : Failure) (faults : List (Fault Torn Failure)) :
    (((removeUnpublished directory).bind fun _ => (.raise failure : Action IntentRecord)).run disk faults).store.files
      .intent = disk.files .intent := by
  let same (now : Disk) := now.files .intent = disk.files .intent
  have removed : Triple False same (removeOwnedDirectory directory) (fun _ => same) same := by
    refine removeOwnedDirectory_triple fun now other holds files _ _ => ?_
    exact (files .intent intent_not_asset).trans holds
  have looked : Triple False same (.observe fun now => (now.files .intent).isSome : Action Bool) (fun _ => same) same :=
    Triple.observe fun _ => id
  have whole : Triple False same ((removeUnpublished directory).bind fun _ => (.raise failure : Action IntentRecord))
      (fun _ => same) same := by
    refine Triple.bind (Triple.bind looked fun present => ?_) fun _ => Triple.raise fun now holds => ⟨holds, id⟩
    cases present with
    | true => exact Triple.ret fun _ => id
    | false => exact removed
  exact whole.run_leaves (fun _ _ => id) rfl faults

section
variable {source target : File}

theorem replaceFile_run (present : (disk.files source).isSome = true) (faults : List (Fault Torn Failure)) :
    (replaceFile source target).run disk faults =
      (Program.perform (replaceStep source target) : Action Unit).run disk faults := by
  have passes : demand (disk.files source).isSome Failure.fileNotFound = .ok () := demand_ok.mpr present
  unfold replaceFile
  rw [Program.bind_eq, Program.run_bind, Program.check, Program.run_read, passes]
  rfl

theorem replaceFile_missing (missing : disk.files source = none) (faults : List (Fault Torn Failure)) :
    (replaceFile source target).run disk faults = .error .fileNotFound disk faults := by
  unfold replaceFile
  rw [Program.bind_eq, Program.run_bind, Program.check, Program.run_read, missing]
  rfl

end

theorem rename_again {bytes : Bytes} {exhausted : Failure} (window : Window directory bytes disk) (attempts : Nat) :
    ((Program.retry isPermission exhausted (.ret ()) (replaceFile (.asset directory .completeIntent) .intent)
      (attempts + 1)).run disk []).store.files .intent = some bytes := by
  rw [Program.retry, Program.run_bind, Program.run_ret]
  show (Program.run (Program.handle _ _) disk []).store.files .intent = _
  rw [Program.run_handle]
  rcases window with waiting | taken
  · rw [replaceFile_run (by rw [waiting.1]; rfl)]
    show (disk.moved (.asset directory .completeIntent) .intent).files .intent = some bytes
    rw [files_moved, if_neg (by simp), if_pos rfl]
    exact waiting.1
  · rw [replaceFile_missing taken.1]
    exact taken.2

theorem handled_intent (body : Action IntentRecord) (faults : List (Fault Torn Failure)) :
    ((body.handle fun failure => (removeUnpublished directory).bind fun _ => .raise failure).run disk faults).store.files
      .intent = (body.run disk faults).store.files .intent := by
  rw [Program.run_handle]
  cases body.run disk faults with
  | ok value after rest => rfl
  | error error after rest => exact removeUnpublished_intent error rest
  | crash after => rfl

theorem rename_disturbed {bytes : Bytes} (waiting : disk.files (.asset directory .completeIntent) = some bytes)
    (reserved : disk.files .intent = some []) (disturbs : fault.disturbs = true) :
    ((systemReplaceWithRetry workspace (.asset directory .completeIntent) .intent (.ret ())).run disk [fault]).store.files
      .intent = if fault.landed || (fault.passing isPermission && decide (1 < workspace.maxAttempts)) then some bytes
        else some [] := by
  obtain ⟨more, attempts⟩ : ∃ more, workspace.maxAttempts = more + 1 :=
    ⟨workspace.maxAttempts - 1, by have := workspace.positive; omega⟩
  have present : (disk.files (.asset directory .completeIntent)).isSome = true := by
    rw [waiting]
    rfl
  let after := (replaceStep (.asset directory .completeIntent) .intent).effect disk
  have taken : after.files .intent = some bytes := by
    show (disk.moved (.asset directory .completeIntent) .intent).files .intent = some bytes
    rw [files_moved, if_neg (by simp), if_pos rfl]
    exact waiting
  have gone : after.files (.asset directory .completeIntent) = none := by
    show (disk.moved (.asset directory .completeIntent) .intent).files _ = none
    rw [files_moved, if_pos rfl]
  unfold systemReplaceWithRetry
  rw [attempts, Program.retry, Program.run_bind, Program.run_ret]
  show (Program.run (Program.handle _ _) disk [fault]).store.files .intent = _
  rw [Program.run_handle, replaceFile_run present]
  cases fault with
  | run => cases disturbs
  | crash progress =>
    cases progress with
    | untouched => exact reserved
    | torn how => exact reserved
    | landed => exact taken
  | fail error progress =>
    have landing : Window directory bytes (progress.land (replaceStep (.asset directory .completeIntent) .intent) disk) := by
      cases progress with
      | untouched => exact .inl ⟨waiting, reserved⟩
      | torn how => exact .inl ⟨waiting, reserved⟩
      | landed => exact .inr ⟨gone, taken⟩
    have result : (progress.land (replaceStep (.asset directory .completeIntent) .intent) disk).files .intent =
        if (Fault.fail error progress : Fault Torn Failure).landed then some bytes else some [] := by
      cases progress with
      | untouched => exact reserved
      | torn how => exact reserved
      | landed => exact taken
    have ran : (Program.perform (replaceStep (.asset directory .completeIntent) .intent) : Action Unit).run disk
        [.fail error progress] =
          .error error (progress.land (replaceStep (.asset directory .completeIntent) .intent) disk) [] := rfl
    have passed : (Fault.fail error progress : Fault Torn Failure).passing isPermission = isPermission error := rfl
    rw [ran, passed]
    dsimp only
    by_cases passing : isPermission error = true
    · rw [if_pos passing, passing, Bool.true_and]
      cases more with
      | zero =>
        rw [if_pos rfl, decide_eq_false (by omega), Bool.or_false]
        exact result
      | succ again =>
        rw [if_neg (Nat.succ_ne_zero again), decide_eq_true (by omega), Bool.or_true, if_pos rfl]
        exact rename_again landing again
    · rw [if_neg passing, Bool.eq_false_iff.mpr passing, Bool.false_and, Bool.or_false]
      exact result

theorem Fate.Found.congr {fate : Fate} (same : other.files .intent = disk.files .intent) (found : fate.Found disk) :
    fate.Found other := by
  cases fate with
  | absent => exact same.trans found
  | reserved => exact same.trans found
  | complete =>
    obtain ⟨content, there, some⟩ := found
    exact ⟨content, same.trans there, some⟩

theorem fate_early {attempts reserving position : Nat} (early : position < reserving) :
    fate attempts reserving position fault = .absent := if_pos early

theorem fate_add (attempts steps reserving position : Nat) (fault : Fault Torn Failure) :
    fate attempts (steps + reserving) (steps + position) fault = fate attempts reserving position fault := by
  have less : steps + position < steps + reserving ↔ position < reserving := by omega
  have equal : steps + position = steps + reserving ↔ position = reserving := by omega
  have next : steps + position = steps + reserving + 1 ↔ position = reserving + 1 := by omega
  simp only [fate, less, equal, next]

theorem fate_bind {α β : Type} {first : Action α} {next : α → Action β} {steps reserving : Nat} {value : α} {after : Disk}
    {attempts : Nat} (disturbs : fault.disturbs = true)
    (one : Paced first disk steps value after)
    (absent : ∀ faults, (first.run disk faults).store.files .intent = none)
    (rest : ∀ position, (fate attempts reserving position fault).Found ((next value).run after (faultAt position fault)).store)
    (position : Nat) :
    (fate attempts (steps + reserving) position fault).Found ((first.bind next).run disk (faultAt position fault)).store := by
  by_cases early : position < steps
  · rw [fate_early (by omega), one.store_before early disturbs]
    exact absent _
  · obtain ⟨later, rfl⟩ : ∃ later, position = steps + later := ⟨position - steps, by omega⟩
    rw [fate_add, one.run_behind]
    exact rest later

theorem encodeIntent_ne_nil {record : IntentRecord} (valid : record.fieldsValid = true) : encodeIntent record ≠ [] := by
  intro empty
  have decoded := decodeIntent_encodeIntent valid
  rw [empty, decodeIntent_nil] at decoded
  cases decoded

theorem reserve_fate {bytes : Bytes} (nonempty : bytes ≠ [])
    (waiting : disk.files (.asset directory .completeIntent) = some bytes) (absent : disk.files .intent = none) (disturbs : fault.disturbs = true) (position : Nat) :
    (fate workspace.maxAttempts 0 position fault).Found
      (((Program.perform reserveStep).bind fun _ =>
        systemReplaceWithRetry workspace (.asset directory .completeIntent) .intent (.ret ())).run disk
          (faultAt position fault)).store := by
  let reserved := reserveStep.effect disk
  have taken : reserved.files .intent = some [] := set_files_self ..
  have still : reserved.files (.asset directory .completeIntent) = some bytes := by
    show (disk.set .intent (some [])).files _ = _
    rw [files_set, if_neg (by simp)]
    exact waiting
  match position with
  | 0 =>
    cases fault with
    | run => cases disturbs
    | crash progress =>
      cases progress with
      | untouched => exact absent
      | torn how => exact absent
      | landed => exact taken
    | fail error progress =>
      cases progress with
      | untouched => exact absent
      | torn how => exact absent
      | landed => exact taken
  | 1 =>
    show (fate workspace.maxAttempts 0 1 fault).Found
      ((systemReplaceWithRetry workspace (.asset directory .completeIntent) .intent (.ret ())).run reserved [fault]).store
    have result : ((systemReplaceWithRetry workspace (.asset directory .completeIntent) .intent (.ret ())).run reserved
        [fault]).store.files .intent = _ := rename_disturbed still taken disturbs
    have which : fate workspace.maxAttempts 0 1 fault =
        if fault.landed || (fault.passing isPermission && decide (1 < workspace.maxAttempts)) then .complete
        else .reserved := rfl
    rw [which]
    split
    · next good =>
      rw [if_pos good] at result
      exact ⟨bytes, result, nonempty⟩
    · next bad =>
      rw [if_neg bad] at result
      exact result
  | later + 2 =>
    have which : fate workspace.maxAttempts 0 (later + 2) fault = .complete := by
      simp [fate]
    rw [which]
    refine ⟨bytes, ?_, nonempty⟩
    show ((systemReplaceWithRetry workspace (.asset directory .completeIntent) .intent (.ret ())).run reserved
      (.run :: faultAt later fault)).store.files .intent = _
    obtain ⟨more, attempts⟩ : ∃ more, workspace.maxAttempts = more + 1 :=
      ⟨workspace.maxAttempts - 1, by have := workspace.positive; omega⟩
    unfold systemReplaceWithRetry
    rw [attempts, Program.retry, Program.run_bind, Program.run_ret]
    show (Program.run (Program.handle _ _) reserved _).store.files .intent = _
    rw [Program.run_handle, replaceFile_run (by rw [still]; rfl)]
    show (reserved.moved (.asset directory .completeIntent) .intent).files .intent = _
    rw [files_moved, if_neg (by simp), if_pos rfl]
    exact still

theorem publishIntent_fate {record : IntentRecord} (nonempty : encodeIntent record ≠ [])
    (unwritten : disk.files (.asset directory .completeIntent) = none) (absent : disk.files .intent = none) (disturbs : fault.disturbs = true) (position : Nat) :
    (fate workspace.maxAttempts 1 position fault).Found
      ((publishIntent workspace directory record).run disk (faultAt position fault)).store := by
  have away : ∀ content, (disk.set (.asset directory .completeIntent) content).files .intent = none := by
    intro content
    rw [files_set, if_neg (by simp)]
    exact absent
  have writing : Triple False (fun now => now = disk)
      (writeFsynced (.asset directory .completeIntent) (encodeIntent record) true)
      (fun _ now => now.files .intent = none) (fun now => now.files .intent = none) := by
    refine writeFsynced_triple (fun now same => same ▸ absent) False.elim ?_ ?_
    · intro now same
      rw [same]
      exact away _
    · intro now same content
      rw [same]
      exact away _
  have free : demand ((disk.set (.asset directory .completeIntent) (some (encodeIntent record))).files .intent).isNone
      Failure.fileExists = .ok () := by
    rw [away]
    rfl
  suffices whole : (fate workspace.maxAttempts (1 + (0 + 0)) position fault).Found
      ((publishIntent workspace directory record).run disk (faultAt position fault)).store from whole
  refine fate_bind disturbs (writeFsynced_paced unwritten) (fun faults => writing.run_leaves (fun _ _ => id) rfl faults)
    (fun later => ?_) position
  refine fate_bind disturbs (Paced.check free) (fun faults => ?_) (fun last => ?_) later
  · rw [Program.check, Program.run_read, free]
    exact away _
  · exact reserve_fate nonempty (set_files_self ..) (away _) disturbs last

theorem prepare_fate (admitted : Admitted workspace start lock transactionId nonce operations resolved)
    (named : isTransactionDirectory directory = true) (absent : start.files .intent = none)
    (unmade : start.directories directory = false) (fresh : ∀ name, start.files (.asset directory name) = none) (disturbs : fault.disturbs = true) (position : Nat) :
    (fate workspace.maxAttempts (reservation start resolved) position fault).Found
      ((prepare workspace lock transactionId nonce directory operations).run start (faultAt position fault)).store := by
  let made := (mkdirStep directory).effect start
  have admissible : Admissible workspace start lock transactionId nonce operations resolved :=
    ⟨admitted.identified, admitted.nonceValid, admitted.leased.1, absent, admitted.nonempty, admitted.resolution⟩
  have resolutions := resolveOperations_ok admitted.resolution
  have split : reservation start resolved = 3 + (1 + (sumSteps (resolved.map (ResolvedOperation.assets start)) + 1)) := by
    unfold reservation
    omega
  rw [split]
  have entering : Triple False (fun disk => disk = start) (accept workspace lock transactionId nonce operations) _ _ :=
    accept_triple False.elim
  refine fate_bind disturbs (accept_paced admissible) ?_ (fun position => ?_) position
  · intro faults
    have left := entering.run_leaves (fun _ _ now => now.1) rfl faults
    rw [left]
    exact absent
  have making : Triple False (fun disk => disk = start) (makeDirectory directory) _ _ := makeDirectory_triple False.elim
  refine fate_bind disturbs (makeDirectory_paced unmade) ?_ (fun position => ?_) position
  · intro faults
    have left := making.run_leaves (fun _ _ now => .inr now) rfl faults
    rcases left with same | same
    · rw [same]
      exact absent
    · rw [same]
      exact absent
  have requested : Requested workspace made resolved :=
    requested_of resolutions
  have passes : ∀ operation ∈ resolved, Passes workspace made operation := fun operation member path own =>
    ⟨admitted.plain operation member path own, admitted.volume operation member path own⟩
  have fence : Fenced lock (some nonce) made := ⟨admitted.leased.2, beq_iff_eq.mpr admitted.leased.1⟩
  have counted : Takes (stageRecord workspace lock transactionId nonce directory resolved) made
      (sumSteps (resolved.map (ResolvedOperation.assets start))) := stageRecord_takes requested fresh passes fence
  obtain ⟨record, staged, paced⟩ := counted
  have staging : Triple False (fun disk => disk = made)
      (stageRecord workspace lock transactionId nonce directory resolved) _ _ :=
    stageRecord_triple requested fresh False.elim
  obtain ⟨assets, recorded, _, _⟩ := paced.reaches staging rfl
  have valid : record.fieldsValid = true := by
    have same : record = (admitted.plan named).record := recorded
    rw [same]
    exact (admitted.plan named).fieldsValid
  have intentFree : staged.files .intent = none := (assets.agrees.files .intent intent_not_asset).trans absent
  refine Fate.Found.congr (handled_intent _ _) ?_
  refine fate_bind disturbs paced (fun faults => ?_) (fun position => ?_) position
  · have stopped := staging.run_leaves (fun _ _ now => now.1.agrees) rfl faults
    exact (stopped.files .intent intent_not_asset).trans absent
  · rw [Program.bind_eq, Program.store_bind_ret]
    exact publishIntent_fate (encodeIntent_ne_nil valid) assets.unwritten intentFree disturbs position

/-! What an inspection finds. -/

def requestedRecord (workspace : Workspace) (disk : Disk) (transactionId nonce directory : String)
    (operations : List StagedOperation) : IntentRecord where
  transactionId := transactionId
  nonce := nonce
  targets := intentTargets workspace.platform directory 0
    ((operations.filterMap StagedOperation.lexical).map (ResolvedOperation.planned disk))

/-- Nothing is published, or the complete intent with everything still to do; no canonical file
has changed. -/
structure AtomicallyPublished (workspace : Workspace) (before : Disk) (record : IntentRecord) (after : Disk) : Prop where
  kept : Kept before after
  found : (inspectRecovery workspace after).state = .clean ∨
    (inspectRecovery workspace after).state = .prepared ∧ (inspectRecovery workspace after).intent = some record

/-- Some replacement brings the content its target already has. -/
def Rewrites (workspace : Workspace) (disk : Disk) (resolved : List ResolvedOperation) : Prop :=
  ∃ target content, .replace target content ∈ resolved ∧
    (disk.canonical target).map workspace.platform.contentHash = some (workspace.platform.contentHash content)

theorem Admitted.record_eq (admitted : Admitted workspace start lock transactionId nonce operations resolved)
    (named : isTransactionDirectory directory = true) :
    (admitted.plan named).record = requestedRecord workspace start transactionId nonce directory operations := by
  have lexical := (resolveOperations_ok admitted.resolution).lexical
  have same : operations.filterMap StagedOperation.lexical = resolved := by
    calc operations.filterMap StagedOperation.lexical
        = (operations.map StagedOperation.lexical).filterMap id := by rw [filterMap_map, Function.id_comp]
      _ = (resolved.map some).filterMap id := by rw [lexical]
      _ = resolved := by rw [filterMap_map, Function.id_comp, filterMap_some]
  unfold requestedRecord
  rw [same]
  rfl

theorem inspectRecovery_reserved (reserved : disk.files .intent = some []) :
    inspectRecovery workspace disk = ⟨.invalidIntent, none, []⟩ := by
  have refused : loadIntent workspace false disk = .error (.invalidIntent "The staged-write intent is malformed") := by
    simp only [loadIntent, reserved, decodeIntent_nil]
  simp only [inspectRecovery, reserved, refused]

theorem overallState_ne_clean (states : List TargetRecoveryState) : overallState states ≠ .clean := by
  unfold overallState
  split
  · simp
  · split
    · simp
    · split <;> simp

theorem overallState_prepared {states : List TargetRecoveryState} (nonempty : states ≠ [])
    (regular : ∀ state ∈ states, state ≠ .conflict) :
    overallState states = .prepared ↔ ∀ state ∈ states, state = .stagedPostimageAvailable := by
  have absent : TargetRecoveryState.conflict ∉ states := fun member => regular _ member rfl
  obtain ⟨first, others, whole⟩ := exists_cons_of_ne_nil nonempty
  have head : first ∈ states := by rw [whole]; exact mem_cons_self
  unfold overallState
  rw [if_neg absent]
  by_cases all : states.all (· = .postimagePresent) = true
  · rw [if_pos all]
    constructor
    · intro same
      cases same
    · intro staged
      have present := of_decide_eq_true (all_eq_true.mp all first head)
      rw [staged first head] at present
      cases present
  · rw [if_neg all]
    by_cases staged : states.all (· = .stagedPostimageAvailable) = true
    · rw [if_pos staged]
      exact ⟨fun _ state member => of_decide_eq_true (all_eq_true.mp staged state member), fun _ => rfl⟩
    · rw [if_neg staged]
      constructor
      · intro same
        cases same
      · intro claimed
        exact absurd (all_eq_true.mpr fun state member => decide_eq_true (claimed state member)) staged

theorem opened_of_admitted (admitted : Admitted workspace start lock transactionId nonce operations resolved)
    (named : isTransactionDirectory directory = true) (kept : Kept start disk) : (admitted.plan named).Opened disk := by
  intro path member
  rw [nestedContext_congr kept]
  obtain ⟨planned, inside, own⟩ := mem_flatMap.mp member
  obtain ⟨operation, there, same⟩ := mem_map.mp inside
  rw [← same, ResolvedOperation.planned_paths] at own
  exact ((resolveOperations_ok admitted.resolution).placed operation there path own).opened

/-- An operation of a prepared intent already counts as applied only if it rewrites its file. -/
theorem applied_prepared (kept : Kept start disk) (present : operation.Present start) :
    applied workspace disk ((operation.planned start).operation workspace.platform) = true ↔
      ∃ target content, operation = .replace target content ∧
        (start.canonical target).map workspace.platform.contentHash = some (workspace.platform.contentHash content) := by
  cases operation with
  | replace target content =>
    show (((disk.canonical target).map workspace.platform.contentHash == some (workspace.platform.contentHash content)) =
      true) ↔ _
    rw [kept target, beq_iff_eq]
    constructor
    · intro same
      exact ⟨target, content, rfl, same⟩
    · intro found
      obtain ⟨_, _, same, hashed⟩ := found
      cases same
      exact hashed
  | move source destination =>
    have undone : (ResolvedOperation.planned start (.move source destination)).Undone start :=
      ResolvedOperation.planned_undone present
    have pending : applied workspace disk ((ResolvedOperation.planned start (.move source destination)).operation
        workspace.platform) = false := by
      unfold applied
      rw [Planned.operation_target, kept]
      show ((start.canonical source).map _ == none && _) = false
      rw [undone.1]
      rfl
    rw [pending]
    simp
  | delete target =>
    have undone : (ResolvedOperation.planned start (.delete target)).Undone start :=
      ResolvedOperation.planned_undone present
    have pending : applied workspace disk ((ResolvedOperation.planned start (.delete target)).operation
        workspace.platform) = false := by
      unfold applied
      rw [Planned.operation_target, kept]
      show ((start.canonical target).map _ == none) = false
      rw [show start.canonical target = _ from undone]
      rfl
    rw [pending]
    simp

theorem inspectRecovery_prepared (admitted : Admitted workspace start lock transactionId nonce operations resolved)
    (named : isTransactionDirectory directory = true) (kept : Kept start disk)
    (prepared : (admitted.plan named).Prepared disk) :
    (inspectRecovery workspace disk).intent = some (admitted.plan named).record ∧
      (inspectRecovery workspace disk).state ≠ .clean ∧
      ((inspectRecovery workspace disk).state = .prepared ↔ ¬Rewrites workspace start resolved) := by
  have resolutions := resolveOperations_ok admitted.resolution
  rw [Plan.inspectRecovery_of prepared.published (opened_of_admitted admitted named kept)]
  have nonempty : (admitted.plan named).operations.map (Planned.state workspace disk) ≠ [] := by
    rw [ne_eq, map_eq_nil_iff]
    exact (admitted.plan named).nonempty
  have regular : ∀ state ∈ (admitted.plan named).operations.map (Planned.state workspace disk), state ≠ .conflict := by
    intro state member
    obtain ⟨planned, _, same⟩ := mem_map.mp member
    rw [← same]
    exact Plan.state_ne_conflict
  refine ⟨rfl, overallState_ne_clean _, ?_⟩
  rw [overallState_prepared nonempty regular]
  constructor
  · intro staged rewrites
    obtain ⟨target, content, member, hashed⟩ := rewrites
    have inside : ResolvedOperation.planned start (.replace target content) ∈ (admitted.plan named).operations :=
      mem_map_of_mem member
    have waiting := staged _ (mem_map_of_mem inside)
    rw [Planned.state, if_pos ((applied_prepared kept (resolutions.present _ member)).mpr ⟨_, _, rfl, hashed⟩)] at waiting
    cases waiting
  · intro fresh state member
    obtain ⟨planned, inside, same⟩ := mem_map.mp member
    obtain ⟨operation, there, origin⟩ := mem_map.mp inside
    rw [← same, ← origin, Planned.state, if_neg]
    intro found
    obtain ⟨target, content, shape, hashed⟩ := (applied_prepared kept (resolutions.present _ there)).mp found
    rw [shape] at there
    exact fresh ⟨target, content, there, hashed⟩

/-- One disturbed step of `prepare` leaves the publication atomic exactly when it does not come
between the reservation and the rename, and no published operation rewrites its file. -/
theorem publication_atomic_iff (named : isTransactionDirectory directory = true) (absent : start.files .intent = none)
    (unmade : start.directories directory = false) (fresh : ∀ name, start.files (.asset directory name) = none)
    {fault : Fault Torn Failure} (disturbs : fault.disturbs = true) (position : Nat) :
    AtomicallyPublished workspace start (requestedRecord workspace start transactionId nonce directory operations)
        ((prepare workspace lock transactionId nonce directory operations).run start (faultAt position fault)).store ↔
      ∀ resolved, Admitted workspace start lock transactionId nonce operations resolved →
        fate workspace.maxAttempts (reservation start resolved) position fault ≠ .reserved ∧
          (fate workspace.maxAttempts (reservation start resolved) position fault = .complete →
            ¬Rewrites workspace start resolved) := by
  have preparing : Triple False (fun disk => disk = start)
      (prepare workspace lock transactionId nonce directory operations) _ _ := prepare_triple named absent fresh False.elim
  have left := preparing.run_leaves (fun _ _ done => done.choose_spec.choose_spec.2.2) rfl (faultAt position fault)
  generalize reached : ((prepare workspace lock transactionId nonce directory operations).run start
    (faultAt position fault)).store = after at left ⊢
  have found : ∀ resolved, Admitted workspace start lock transactionId nonce operations resolved →
      (fate workspace.maxAttempts (reservation start resolved) position fault).Found after := by
    intro resolved admitted
    rw [← reached]
    exact prepare_fate admitted named absent unmade fresh disturbs position
  constructor
  · intro atomic resolved admitted
    have there := found resolved admitted
    constructor
    · intro reserved
      rw [reserved] at there
      have invalid : (inspectRecovery workspace after).state = .invalidIntent := by rw [inspectRecovery_reserved there]
      rcases atomic.found with clean | prepared
      · rw [clean] at invalid
        cases invalid
      · rw [prepared.1] at invalid
        cases invalid
    · intro complete
      rw [complete] at there
      obtain ⟨content, intent, some⟩ := there
      rcases left.intent with none | ⟨other, admitted', reserved | prepared⟩
      · rw [intent] at none
        cases none
      · rw [intent, Option.some.injEq] at reserved
        exact absurd reserved some
      · have same : other = resolved := Except.ok.inj (admitted'.resolution.symm.trans admitted.resolution)
        subst same
        obtain ⟨_, dirty, exactly⟩ := inspectRecovery_prepared admitted' named left.kept prepared
        rcases atomic.found with clean | waiting
        · exact absurd clean dirty
        · exact exactly.mp waiting.1
  · intro safe
    refine ⟨left.kept, ?_⟩
    rcases left.intent with none | ⟨resolved, admitted, state⟩
    · refine .inl ?_
      simp only [inspectRecovery, none]
    · obtain ⟨open_, quiet⟩ := safe resolved admitted
      have there := found resolved admitted
      cases which : fate workspace.maxAttempts (reservation start resolved) position fault with
      | reserved => exact absurd which open_
      | absent =>
        rw [which] at there
        refine .inl ?_
        simp only [inspectRecovery, show after.files .intent = none from there]
      | complete =>
        rw [which] at there
        obtain ⟨content, intent, some⟩ := there
        rcases state with reserved | prepared
        · rw [intent, Option.some.injEq] at reserved
          exact absurd reserved some
        · obtain ⟨record, _, exactly⟩ := inspectRecovery_prepared admitted named left.kept prepared
          refine .inr ⟨exactly.mpr (quiet which), ?_⟩
          rw [record, admitted.record_eq named]

end

/-- A clean workspace with one note, under a held lease. -/
def cleanDisk : Disk where
  files file := if file = .canonical "00_inbox/a.md" then some [97] else none
  directories _ := false
  lock := some "0123456789abcdef0123456789abcdef"
  ledger := []

theorem sampleMove_admitted : Admitted sampleWorkspace cleanDisk "0123456789abcdef0123456789abcdef"
    "TXP-20250101T000000Z-move" "0123456789abcdef0123456789abcdef" [.move "00_inbox/a.md" "01_processed/a.md"]
    [.move "00_inbox/a.md" "01_processed/a.md"] := by
  have opened : ∀ path ∈ ["00_inbox/a.md", "01_processed/a.md"], nestedContext cleanDisk path = false := by decide
  refine ⟨by decide, by decide, ⟨rfl, rfl⟩, by simp, rfl, ?_, fun _ _ _ _ => rfl⟩
  intro operation member path own
  rw [mem_singleton.mp member] at own
  unfold parentsPlain
  rw [opened path own]
  rfl

/-- A crash at the first asset. -/
theorem publication_atomic_iff_sample :
    AtomicallyPublished sampleWorkspace cleanDisk
        (requestedRecord sampleWorkspace cleanDisk "TXP-20250101T000000Z-move" "0123456789abcdef0123456789abcdef"
          "txn-0123456789abcdef01234567" [.move "00_inbox/a.md" "01_processed/a.md"])
        ((prepare sampleWorkspace "0123456789abcdef0123456789abcdef" "TXP-20250101T000000Z-move"
          "0123456789abcdef0123456789abcdef" "txn-0123456789abcdef01234567"
          [.move "00_inbox/a.md" "01_processed/a.md"]).run cleanDisk (faultAt 4 (.crash .landed))).store ↔
      ∀ resolved, Admitted sampleWorkspace cleanDisk "0123456789abcdef0123456789abcdef" "TXP-20250101T000000Z-move"
          "0123456789abcdef0123456789abcdef" [.move "00_inbox/a.md" "01_processed/a.md"] resolved →
        fate sampleWorkspace.maxAttempts (reservation cleanDisk resolved) 4 (.crash .landed) ≠ .reserved ∧
          (fate sampleWorkspace.maxAttempts (reservation cleanDisk resolved) 4 (.crash .landed) = .complete →
            ¬Rewrites sampleWorkspace cleanDisk resolved) :=
  publication_atomic_iff (by decide) rfl rfl (fun _ => rfl) rfl 4

/-- A crash right behind the reservation leaves an empty intent, which no inspection accepts. -/
theorem reservation_crash_invalid :
    ¬∀ (position : Nat) (fault : Fault Torn Failure), fault.disturbs = true →
      AtomicallyPublished sampleWorkspace cleanDisk
        (requestedRecord sampleWorkspace cleanDisk "TXP-20250101T000000Z-move" "0123456789abcdef0123456789abcdef"
          "txn-0123456789abcdef01234567" [.move "00_inbox/a.md" "01_processed/a.md"])
        ((prepare sampleWorkspace "0123456789abcdef0123456789abcdef" "TXP-20250101T000000Z-move"
          "0123456789abcdef0123456789abcdef" "txn-0123456789abcdef01234567"
          [.move "00_inbox/a.md" "01_processed/a.md"]).run cleanDisk (faultAt position fault)).store := by
  intro claimed
  have named : isTransactionDirectory "txn-0123456789abcdef01234567" = true := by decide
  have disturbs : (Fault.crash .landed : Fault Torn Failure).disturbs = true := rfl
  have reserved := prepare_fate sampleMove_admitted named rfl rfl (fun _ => rfl) disturbs 6
  have which : fate sampleWorkspace.maxAttempts
      (reservation cleanDisk [.move "00_inbox/a.md" "01_processed/a.md"]) 6 (.crash .landed) = .reserved := by decide
  rw [which] at reserved
  have invalid := congrArg RecoveryInspection.state (@inspectRecovery_reserved sampleWorkspace _ reserved)
  rcases (claimed 6 (.crash .landed) disturbs).found with clean | prepared
  · rw [clean] at invalid
    cases invalid
  · rw [prepared.1] at invalid
    cases invalid

end Workctx.Staging
