import Workctx.Staging.Disk

/-! The staged replacement: the classification of an intent on disk, and the programs that
apply it, roll it back and remove it. -/

namespace Workctx.Staging
open Workctx.Durable Workctx.Text Workctx.Domain

/-! Validation of a loaded intent. -/

/-- An intent target with the hashes its kind has. -/
inductive ValidatedOperation where
  | replace (target contentHash : String) (preimageHash : Option String)
  | move (source destination contentHash : String)
  | delete (target preimageHash : String)
deriving DecidableEq

structure ValidatedIntent where
  directory : String
  operations : List ValidatedOperation
deriving DecidableEq

def ValidatedOperation.target : ValidatedOperation → String
  | .replace target _ _ => target
  | .move source _ _ => source
  | .delete target _ => target

def ValidatedOperation.destination : ValidatedOperation → Option String
  | .move _ destination _ => some destination
  | _ => none

def ValidatedOperation.isReplace : ValidatedOperation → Bool
  | .replace .. => true
  | _ => false

def ValidatedOperation.preimageHash : ValidatedOperation → Option String
  | .replace _ _ preimageHash => preimageHash
  | .move _ _ contentHash => some contentHash
  | .delete _ preimageHash => some preimageHash

def IntentTarget.operation (item : IntentTarget) : Option ValidatedOperation :=
  match item.kind with
  | .replace => item.contentHash.map fun contentHash => .replace item.target contentHash item.preimageHash
  | .move => item.contentHash.bind fun contentHash =>
      item.destination.map fun destination => .move item.target destination contentHash
  | .delete => item.preimageHash.map fun preimageHash => .delete item.target preimageHash

def ownedDirectory (text : String) (name : AssetName) (message : String) : Except Failure String :=
  match splitPath text with
  | [state, staging, transactions, directory, leaf] =>
    if [state, staging, transactions] ≠ stagingParts then
      .error (.contextBoundary ("Path is outside the allowed context zone: " ++ text))
    else if isTransactionDirectory (String.ofList directory) && leaf == name.text then .ok (String.ofList directory)
    else .error (.invalidIntent message)
  | _ => .error (.invalidIntent message)

def optionalDirectory (text : Option String) (name : AssetName) (message : String) : Except Failure (Option String) :=
  match text with
  | none => .ok none
  | some text => (ownedDirectory text name message).map some

def demand (test : Bool) (failure : Failure) : Except Failure Unit := if test then .ok () else .error failure

section
variable (workspace : Workspace)

/-- `claimed_paths` with their collision keys. -/
def claimPaths (keys : List String) : List String → Except Failure (List String)
  | [] => .ok keys
  | path :: rest => do
    demand (!keys.contains (workspace.platform.pathKey path)) (.invalidIntent "Intent contains duplicate operation paths")
    claimPaths (keys ++ [workspace.platform.pathKey path]) rest

/-- One round of `_validated_intent_paths`. Asset names carry the index, so that the owned
layout already keeps them apart. -/
def validateTarget (cached : Bool) (disk : Disk) (index : Nat) (item : IntentTarget) (directory : Option String)
    (keys : List String) : Except Failure (ValidatedOperation × String × List String) := do
  let targetPath ← resolveTarget workspace cached disk item.target
  demand (item.target == targetPath) (.invalidIntent "Intent target path is not canonical")
  let stagedParent ← optionalDirectory item.staged (.stage index) "Intent staged path does not use the owned layout"
  let backupParent ← optionalDirectory item.backup (.backup index) "Intent backup path does not use the owned layout"
  match stagedParent <|> backupParent with
  | none => .error (.invalidIntent "Intent target has no owned recovery asset")
  | some owned =>
    demand (stagedParent.isNone || backupParent.isNone || backupParent == stagedParent)
      (.invalidIntent "Intent recovery assets span staging directories")
    demand (directory.isNone || directory == some owned)
      (.invalidIntent "Intent targets span multiple staging directories")
    match item.destination with
    | none => .ok ()
    | some destination => do
      let destinationPath ← resolveTarget workspace cached disk destination
      demand (destination == destinationPath) (.invalidIntent "Intent move destination path is not canonical")
    let keys ← claimPaths workspace keys (item.target :: item.destination.toList)
    match item.operation with
    | none => .error (.invalidIntent "The staged-write intent is malformed")
    | some operation => .ok (operation, owned, keys)

def validateTargets (cached : Bool) (disk : Disk) (index : Nat) (directory : Option String) (keys : List String) :
    List IntentTarget → Except Failure (List ValidatedOperation × Option String)
  | [] => .ok ([], directory)
  | item :: rest => do
    let (operation, owned, keys) ← validateTarget workspace cached disk index item directory keys
    let (operations, directory) ← validateTargets cached disk (index + 1) (some owned) keys rest
    .ok (operation :: operations, directory)

def validatedIntentPaths (cached : Bool) (disk : Disk) (record : IntentRecord) : Except Failure ValidatedIntent := do
  let (operations, directory) ← validateTargets workspace cached disk 0 none [] record.targets
  match directory with
  | none => .error (.invalidIntent "Intent target has no owned recovery asset")
  | some directory => .ok ⟨directory, operations⟩

/-- `_load_intent`, with the validated paths every caller takes from the record. -/
def loadIntent (cached : Bool) (disk : Disk) : Except Failure (IntentRecord × ValidatedIntent) :=
  match disk.files .intent with
  | none => .error (.contextBoundary "Required file is missing: intent.json")
  | some bytes => match decodeIntent bytes with
    | none => .error (.invalidIntent "The staged-write intent is malformed")
    | some record => (validatedIntentPaths workspace cached disk record).map fun validated => (record, validated)

/-! Classification. -/

inductive TargetRecoveryState where
  | postimagePresent
  | stagedPostimageAvailable
  | conflict
deriving DecidableEq

structure OperationSnapshot where
  currentHash : Option String
  destinationHash : Option String
  stagedHash : Option String
  backupHash : Option String
  state : TargetRecoveryState
deriving DecidableEq

def requireOperationParents (disk : Disk) (directory : String) (operation : ValidatedOperation) :
    Except Failure Unit := do
  demand (disk.directories directory) (.contextBoundary ("File parent must be a directory: " ++ directory))
  demand (parentsPlain workspace disk operation.target && (operation.isReplace || workspace.safeLeaf operation.target))
    (.recoveryRequired ("Target parent is unavailable for " ++ operation.target))
  demand (operation.destination.all fun path => parentsPlain workspace disk path && workspace.safeLeaf path)
    (.recoveryRequired ("Move destination parent is unavailable for " ++ operation.destination.getD ""))
  demand (parentUsable workspace operation.target)
    (.recoveryRequired ("Target parent is unavailable for " ++ operation.target))
  demand (operation.destination.all (parentUsable workspace))
    (.recoveryRequired ("Move destination parent is unavailable for " ++ operation.destination.getD ""))

/-- `_verify_backup`; a validated operation has a backup exactly when it has a preimage. -/
def verifyBackup (disk : Disk) (directory : String) (index : Nat) (operation : ValidatedOperation) :
    Except Failure Unit :=
  match operation.preimageHash with
  | none => .ok ()
  | some preimageHash => demand
      ((disk.files (.asset directory (.backup index))).map workspace.platform.contentHash == some preimageHash)
      (.invalidIntent ("Preimage backup is unavailable for target " ++ operation.target))

/-- How `_snapshot_operation` classifies an operation from the hashes it has taken. -/
def classify (operation : ValidatedOperation) (currentHash destinationHash stagedHash : Option String) :
    Except Failure TargetRecoveryState :=
  match operation with
  | .replace target contentHash preimageHash =>
    if currentHash = some contentHash then .ok .postimagePresent
    else if currentHash = preimageHash then
      if stagedHash = some contentHash then .ok .stagedPostimageAvailable
      else .error (.invalidIntent ("Staged postimage is unavailable for target " ++ target))
    else .ok .conflict
  | .move _ _ contentHash =>
    if currentHash = none ∧ destinationHash = some contentHash then .ok .postimagePresent
    else if currentHash = some contentHash ∧ destinationHash = none then .ok .stagedPostimageAvailable
    else .ok .conflict
  | .delete _ preimageHash =>
    if currentHash = none then .ok .postimagePresent
    else if currentHash = some preimageHash then .ok .stagedPostimageAvailable
    else .ok .conflict

def snapshotOperation (disk : Disk) (directory : String) (index : Nat) (operation : ValidatedOperation) :
    Except Failure OperationSnapshot := do
  requireOperationParents workspace disk directory operation
  let currentHash ← hashOptionalFile workspace disk (.canonical operation.target)
  let destinationHash ← match operation.destination with
    | none => .ok none
    | some path => hashOptionalFile workspace disk (.canonical path)
  let stagedHash ← if operation.isReplace then hashOptionalFile workspace disk (.asset directory (.stage index)) else .ok none
  let backupHash ← if operation.preimageHash.isSome then hashOptionalFile workspace disk (.asset directory (.backup index))
    else .ok none
  verifyBackup workspace disk directory index operation
  let state ← classify operation currentHash destinationHash stagedHash
  .ok { currentHash, destinationHash, stagedHash, backupHash, state }

inductive RecoveryState where
  | clean
  | invalidIntent
  | prepared
  | partiallyApplied
  | fullyReplacedAwaitingAudit
  | recoveryConflict
deriving DecidableEq

structure RecoveryInspection where
  state : RecoveryState
  intent : Option IntentRecord
  targets : List TargetRecoveryState
deriving DecidableEq

def inspectTarget (disk : Disk) (directory : String) (index : Nat) (operation : ValidatedOperation) :
    TargetRecoveryState :=
  match snapshotOperation workspace disk directory index operation with
  | .ok snapshot => snapshot.state
  | .error _ => .conflict

def overallState (states : List TargetRecoveryState) : RecoveryState :=
  if .conflict ∈ states then .recoveryConflict
  else if states.all (· = .postimagePresent) then .fullyReplacedAwaitingAudit
  else if states.all (· = .stagedPostimageAvailable) then .prepared
  else .partiallyApplied

def inspectTargets (disk : Disk) (validated : ValidatedIntent) : List TargetRecoveryState :=
  validated.operations.mapIdx fun index operation => inspectTarget workspace disk validated.directory index operation

def inspectRecovery (disk : Disk) : RecoveryInspection :=
  match disk.files .intent with
  | none => ⟨.clean, none, []⟩
  | some _ => match loadIntent workspace false disk with
    | .error _ => ⟨.invalidIntent, none, []⟩
    | .ok (record, validated) =>
      let states := inspectTargets workspace disk validated
      ⟨overallState states, some record, states⟩

/-! The programs. -/

/-- `_verify_lock` for a lease with this nonce. -/
def verifyLock (lock : String) (expectedNonce : Option String) : Action Unit :=
  .check fun disk => do
    demand (disk.lock.isSome) (.lockFence "The context write lock is absent")
    demand (disk.lock == some lock) (.lockFence "The context write lock is owned by another session")
    demand (expectedNonce.all (· == lock)) (.lockFence "The verified context lock does not own the intent nonce")

def activateResolutionCache (lock : String) (expectedNonce : Option String) : Action Unit :=
  .ensure (expectedNonce.all (· == lock)) (.lockFence "The verified context lock does not own the intent nonce")

def writeFsynced (file : File) (payload : Bytes) (exclusive : Bool) : Action Unit := do
  if exclusive then .check fun disk => demand (disk.files file).isNone .fileExists
  .perform (writeStep file payload)

def isPermission (failure : Failure) : Bool := failure == .permission

def remainedUnavailable (what : String) : Failure :=
  .recoverableReplace (what ++ " remained unavailable after " ++ toString workspace.maxAttempts ++ " attempts")

/-- `os.replace` -/
def replaceFile (source target : File) : Action Unit := do
  .check fun disk => demand (disk.files source).isSome .fileNotFound
  .perform (replaceStep source target)

/-- The module function `_replace_with_retry` with its guard. -/
def systemReplaceWithRetry (source target : File) (beforeAttempt : Action Unit) : Action Unit :=
  .retry isPermission (remainedUnavailable workspace "Atomic replacement") beforeAttempt (replaceFile source target)
    workspace.maxAttempts

def requireSourceHash (disk : Disk) (source : File) (expected : String) : Except Failure Unit := do
  let current ← hashOptionalFile workspace disk source
  demand (current == some expected) (.invalidIntent ("Staged source changed during atomic replacement: " ++ source.name))

def requireTargetHash (disk : Disk) (target : File) (expected : Option String) : Except Failure Unit := do
  let current ← hashOptionalFile workspace disk target
  demand (current == expected) (.recoveryRequired ("Target changed during atomic replacement: " ++ target.name))

def revalidatePaths (revalidate : Bool) (source target : File) : Action Unit :=
  if revalidate then .check fun disk => do
    revalidateOwnedFile workspace disk source false
    revalidateOwnedFile workspace disk target true
  else .ret ()

/-- `verify_attempt` of the method `_replace_with_retry`. -/
def verifyAttempt (source target : File) (lock : String) (expectedNonce : Option String) (expectedSource : String)
    (expectedTarget : Option String) (revalidate : Bool) : Action Unit := do
  revalidatePaths workspace revalidate source target
  .check fun disk => do
    requireSourceHash workspace disk source expectedSource
    requireTargetHash workspace disk target expectedTarget
  revalidatePaths workspace revalidate source target
  verifyLock lock expectedNonce

/-- The method `_replace_with_retry`. -/
def replaceWithRetry (source target : File) (lock : String) (expectedNonce : Option String) (expectedSource : String)
    (expectedTarget : Option String) (revalidate : Bool) : Action Unit :=
  systemReplaceWithRetry workspace source target
    (verifyAttempt workspace source target lock expectedNonce expectedSource expectedTarget revalidate)

/-- A removal that accepts a missing file. The system reports one only where none is left. -/
def unlinkMissingOk (file : File) : Action Unit :=
  .handle (.perform (unlinkStep file)) fun failure => .check fun disk =>
    demand (failure = .fileNotFound && (disk.files file).isNone) failure

def revalidateTarget (revalidate : Bool) (target : File) : Action Unit :=
  if revalidate then .check fun disk => revalidateOwnedFile workspace disk target true else .ret ()

/-- One attempt of `_unlink_with_retry`: a file that is already gone needs no removal. -/
def removeAttempt (target : File) (expected : String) (lock : String) (expectedNonce : Option String)
    (revalidate : Bool) : Action Unit := do
  revalidateTarget workspace revalidate target
  let current ← .check fun disk => hashOptionalFile workspace disk target
  revalidateTarget workspace revalidate target
  verifyLock lock expectedNonce
  match current with
  | none => .ret ()
  | some hash => do
    .ensure (hash == expected) (.recoveryRequired ("Target changed during atomic replacement: " ++ target.name))
    unlinkMissingOk target

def unlinkWithRetry (target : File) (expected : String) (lock : String) (expectedNonce : Option String)
    (revalidate : Bool) : Action Unit :=
  .retry isPermission (remainedUnavailable workspace "Atomic removal") (.ret ())
    (removeAttempt workspace target expected lock expectedNonce revalidate) workspace.maxAttempts

/-- The first loop of both directions: no step is taken while some target is in conflict. -/
def requireNoConflict (validated : ValidatedIntent) : Action Unit :=
  .forEach (fun entry => do
      let snapshot ← .check fun disk => snapshotOperation workspace disk validated.directory entry.2 entry.1
      .ensure (snapshot.state != .conflict) (.recoveryRequired
        ((if entry.1.isReplace then "Target differs from both recorded images: "
          else "Target differs from its recorded operation state: ") ++ entry.1.target)))
    validated.operations.zipIdx

/-- One round of the second loop of `_apply_validated`. -/
def applyOperation (lock : String) (expectedNonce : Option String) (directory : String) (operation : ValidatedOperation)
    (index : Nat) : Action Unit := do
  let snapshot ← .check fun disk => snapshotOperation workspace disk directory index operation
  match snapshot.state with
  | .postimagePresent => .ret ()
  | .conflict => .raise (.recoveryRequired ("Target changed during staged operation: " ++ operation.target))
  | .stagedPostimageAvailable => match operation with
    | .replace target contentHash preimageHash =>
      replaceWithRetry workspace (.asset directory (.stage index)) (.canonical target) lock expectedNonce contentHash
        preimageHash false
    | .move source destination contentHash =>
      replaceWithRetry workspace (.canonical source) (.canonical destination) lock expectedNonce contentHash none true
    | .delete target preimageHash =>
      unlinkWithRetry workspace (.canonical target) preimageHash lock expectedNonce true

def applyValidated (lock : String) (expectedNonce : Option String) (validated : ValidatedIntent) : Action Unit := do
  requireNoConflict workspace validated
  verifyLock lock expectedNonce
  .forEach (fun entry => applyOperation workspace lock expectedNonce validated.directory entry.1 entry.2)
    validated.operations.zipIdx

def publishRebuiltPostimage (directory : String) (index : Nat) (token : String) (payload : Bytes) (expected : String)
    (lock : String) (expectedNonce : Option String) : Action Unit := do
  let rebuild := File.asset directory (.rebuild index token)
  writeFsynced rebuild payload true
  .cleanup
    (do
      let hash ← .check fun disk => hashOptionalFile workspace disk rebuild
      .ensure (hash == some expected) (.staging "A reconstructed postimage failed hash verification")
      systemReplaceWithRetry workspace rebuild (.asset directory (.stage index))
        (do
          .check fun disk => requireSourceHash workspace disk rebuild expected
          verifyLock lock expectedNonce))
    (unlinkMissingOk rebuild)

def restoreBackup (directory : String) (index : Nat) (target preimageHash : String) (expectedTarget : Option String)
    (lock : String) (expectedNonce : Option String) (revalidate : Bool) : Action Unit := do
  let preimage ← .check fun disk => readRegularFile workspace disk (.asset directory (.backup index))
  .ensure (workspace.platform.contentHash preimage == preimageHash)
    (.invalidIntent ("Preimage backup is unavailable for target " ++ target))
  writeFsynced (.asset directory (.rollback index)) preimage false
  replaceWithRetry workspace (.asset directory (.rollback index)) (.canonical target) lock expectedNonce preimageHash
    expectedTarget revalidate

def preservePostimage (lock : String) (expectedNonce : Option String) (directory : String) (token : String)
    (index : Nat) (target contentHash : String) (stagedHash : Option String) : Action Unit :=
  if stagedHash = some contentHash then .ret ()
  else do
    let postimage ← .check fun disk => readRegularFile workspace disk (.canonical target)
    .ensure (workspace.platform.contentHash postimage == contentHash)
      (.recoveryRequired ("Target changed during rollback: " ++ target))
    publishRebuiltPostimage workspace directory index token postimage contentHash lock expectedNonce

/-- One round of the second loop of `_rollback_validated`. -/
def rollbackOperation (lock : String) (expectedNonce : Option String) (directory : String) (token : String)
    (operation : ValidatedOperation) (index : Nat) : Action Unit := do
  let snapshot ← .check fun disk => snapshotOperation workspace disk directory index operation
  match snapshot.state with
  | .stagedPostimageAvailable => .ret ()
  | .conflict => .raise (.recoveryRequired ("Target changed during rollback: " ++ operation.target))
  | .postimagePresent => match operation with
    | .replace target contentHash preimageHash => do
      preservePostimage workspace lock expectedNonce directory token index target contentHash snapshot.stagedHash
      match preimageHash with
      | none => unlinkWithRetry workspace (.canonical target) contentHash lock expectedNonce false
      | some preimageHash =>
        restoreBackup workspace directory index target preimageHash (some contentHash) lock expectedNonce false
    | .move source destination contentHash =>
      replaceWithRetry workspace (.canonical destination) (.canonical source) lock expectedNonce contentHash none true
    | .delete target preimageHash =>
      restoreBackup workspace directory index target preimageHash none lock expectedNonce true

/-- `_rollback_validated`; `tokens` are the random names of the rebuilt postimages. -/
def rollbackValidated (lock : String) (expectedNonce : Option String) (tokens : Nat → String)
    (validated : ValidatedIntent) : Action Unit := do
  requireNoConflict workspace validated
  verifyLock lock expectedNonce
  .forEach (fun entry =>
      rollbackOperation workspace lock expectedNonce validated.directory (tokens entry.2) entry.1 entry.2)
    validated.operations.zipIdx.reverse

def loadRequested (cached : Bool) (record : IntentRecord) : Action ValidatedIntent := do
  let (durable, validated) ← .check fun disk => loadIntent workspace cached disk
  .ensure (durable == record) (.invalidIntent "The durable intent differs from the requested transaction")
  .ret validated

def apply (cached : Bool) (lock : String) (record : IntentRecord) : Action Unit := do
  activateResolutionCache lock (some record.nonce)
  let validated ← loadRequested workspace cached record
  applyValidated workspace lock (some record.nonce) validated

def completeRecovery (cached : Bool) (lock : String) (record : IntentRecord) : Action Unit := do
  activateResolutionCache lock none
  let validated ← loadRequested workspace cached record
  applyValidated workspace lock none validated

def rollback (cached : Bool) (lock : String) (tokens : Nat → String) (record : IntentRecord) : Action Unit := do
  activateResolutionCache lock (some record.nonce)
  let validated ← loadRequested workspace cached record
  rollbackValidated workspace lock (some record.nonce) tokens validated

def rollbackRecovery (cached : Bool) (lock : String) (tokens : Nat → String) (record : IntentRecord) : Action Unit := do
  activateResolutionCache lock none
  let validated ← loadRequested workspace cached record
  rollbackValidated workspace lock none tokens validated

def removeOwnedDirectory (directory : String) : Action Unit := do
  let present ← .observe fun disk => disk.directories directory
  if present then .perform (rmtreeStep directory)

/-- `_remove_intent_and_staging`: the intent goes first, the recovery assets after it. -/
def removeIntentAndStaging (validated : ValidatedIntent) : Action Unit := do
  .perform (unlinkStep .intent)
  removeOwnedDirectory validated.directory

def loadOwned (cached : Bool) (transactionId : String) : Action (IntentRecord × ValidatedIntent) := do
  let loaded ← .check fun disk => loadIntent workspace cached disk
  .ensure (loaded.1.transactionId == transactionId) (.invalidIntent "The durable intent belongs to another transaction")
  .ret loaded

def applied (disk : Disk) (operation : ValidatedOperation) : Bool :=
  let current := (disk.canonical operation.target).map workspace.platform.contentHash
  match operation with
  | .replace _ contentHash _ => current == some contentHash
  | .move _ destination contentHash =>
    current == none && (disk.canonical destination).map workspace.platform.contentHash == some contentHash
  | .delete _ _ => current == none

/-- The test of one operation in `_finalize_applied`. -/
def requireApplied (disk : Disk) (directory : String) (operation : ValidatedOperation) : Except Failure Unit := do
  if !operation.isReplace then requireOperationParents workspace disk directory operation
  demand (workspace.safeLeaf operation.target && operation.destination.all workspace.safeLeaf)
    (.contextBoundary ("Path must be a regular file: " ++ operation.target))
  demand (applied workspace disk operation)
    (.recoveryRequired ("Target has not reached its recorded postimage: " ++ operation.target))

def finalizeApplied (cached : Bool) (lock : String) (transactionId : String) (nonceFromIntent : Bool) : Action Unit := do
  let (intent, validated) ← loadOwned workspace cached transactionId
  .forEach (fun operation => .check fun disk => requireApplied workspace disk validated.directory operation)
    validated.operations
  verifyLock lock (if nonceFromIntent then some intent.nonce else none)
  removeIntentAndStaging validated

def finalizeAfterAudit (cached : Bool) (lock : String) (transactionId : String) : Action Unit :=
  finalizeApplied workspace cached lock transactionId true

def finalizeRecoveryAfterAudit (cached : Bool) (lock : String) (transactionId : String) : Action Unit :=
  finalizeApplied workspace cached lock transactionId false

/-- The test of one operation in `finalize_rollback_after_audit`. -/
def requireRolledBack (disk : Disk) (directory : String) (index : Nat) (operation : ValidatedOperation) :
    Except Failure Unit := do
  if !operation.isReplace then requireOperationParents workspace disk directory operation
  verifyBackup workspace disk directory index operation
  let current ← hashOptionalFile workspace disk (.canonical operation.target)
  demand (current == operation.preimageHash)
    (.recoveryRequired ("Target has not reached its recorded preimage: " ++ operation.target))
  match operation with
  | .replace target contentHash _ => do
    let staged ← hashOptionalFile workspace disk (.asset directory (.stage index))
    demand (staged == some contentHash) (.recoveryRequired ("Postimage is unavailable after rollback: " ++ target))
  | .move _ destination _ => do
    let remaining ← hashOptionalFile workspace disk (.canonical destination)
    demand remaining.isNone (.recoveryRequired ("Move destination remains after rollback: " ++ destination))
  | .delete _ _ => .ok ()

def finalizeRollbackAfterAudit (cached : Bool) (lock : String) (transactionId : String) : Action Unit := do
  let (_, validated) ← loadOwned workspace cached transactionId
  .forEach (fun entry => .check fun disk => requireRolledBack workspace disk validated.directory entry.2 entry.1)
    validated.operations.zipIdx
  verifyLock lock none
  removeIntentAndStaging validated

end
end Workctx.Staging
