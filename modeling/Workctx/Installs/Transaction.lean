import Mathlib.Data.List.Basic
import Workctx.Installs.Grammar

/-! The transactions of adapter files: `AtomicAdapterTransaction` and `recover_transaction`. -/

namespace Workctx.Installs
open Workctx.Durable

/-- `FileMutation.operation`; a mutation from absent to absent is refused before. -/
def FileMutation.operation (mutation : FileMutation) : FileOperation :=
  match mutation.expected, mutation.desired with
  | none, _ => .create
  | some _, some _ => .replace
  | some _, none => .delete

def FileMutation.toOperation (mutation : FileMutation) (index : Nat) : Operation :=
  ⟨index, mutation.operation, mutation.path, mutation.expected.map (·.contentHash), mutation.desired⟩

def operationsOf (mutations : List FileMutation) : List Operation :=
  mutations.zipIdx.map fun entry => entry.1.toOperation entry.2

def Operation.artifacts (operation : Operation) : List (EvidenceKind × Option String) :=
  (if operation.postimage.isSome then [(.staged, operation.postimage)] else []) ++
    (if operation.expected.isSome then [(.verified, operation.expected)] else []) ++
      if operation.operation = .delete then [(.removed, operation.expected)] else []

/-- The side of a transaction that was reached. -/
inductive ResolvedState where
  | expected
  | postimage
deriving DecidableEq

def Operation.state (operation : Operation) : ResolvedState → Option String
  | .expected => operation.expected
  | .postimage => operation.postimage

def allMatch (operations : List Operation) (resolved : ResolvedState) (state : ProjectState) : Bool :=
  operations.all fun operation => state.hashAt operation.target == operation.state resolved

def demand (test : Bool) (error : InstallError) : Except InstallError Unit := if test then .ok () else .error error

section
variable (site : Site) (client : AgentClient)

/-! Inspection. -/

/-- `inspect_transactions`: the operations of the one intent, or `none`; an intent that does not parse
makes the staging state invalid. -/
def inspectTransactions (state : ProjectState) : Except InstallError (Option (List Operation)) :=
  match state.intent with
  | .absent => .ok none
  | .torn => .error (.invalidState "Transaction intent is invalid JSON")
  | .written owner operations =>
    if owner = client ∧ acceptsIntent site client operations = true then .ok (some operations)
    else .error (.invalidState "Transaction intent does not match its derived location")

def requireUnchangedIntent (operations : List Operation) : Action Unit := .check fun state =>
  demand (state.intent == .written client operations) (.recoveryConflict "Transaction intent changed during recovery")

/-! Forward. -/

def planTargetHolds (mutations : List FileMutation) (committed : Nat) (state : ProjectState)
    (target : String × Option AdapterFile) : Bool :=
  match (mutations.take committed).find? fun mutation => mutation.path == target.1 with
  | some mutation => state.hashAt target.1 == mutation.desired
  | none => state.targets target.1 == target.2

def requirePlanTargetStates (planTargets : List (String × Option AdapterFile)) (mutations : List FileMutation)
    (committed : Nat) (detail : String) : Action Unit := .check fun state =>
  match planTargets.find? fun target => !planTargetHolds mutations committed state target with
  | some target => .error (.recoveryConflict (detail ++ ": " ++ target.1))
  | none => .ok ()

def stageMutation (mutation : FileMutation) (index : Nat) : Action Unit := do
  match mutation.desired with
  | none => .ret ()
  | some hash => do
    writeEvidence .staged index hash
    .check fun state => demand (state.evidenceHash .staged index == some hash) (.recoveryRequired "Staged postimage hash mismatch")
  match mutation.expected with
  | none => .ret ()
  | some file => do
    writeEvidence .verified index file.contentHash
    .check fun state => demand (state.evidenceHash .verified index == some file.contentHash)
      (.recoveryRequired "Staged preimage hash mismatch")

/-- `SafeRoot.replace` of the target by the staged postimage. -/
def installStaged (operation : Operation) : Action Unit := do
  .check fun state => demand (state.evidenceHash .staged operation.index == operation.postimage)
    (.fileSystem "Replacement source precondition changed")
  replaceTarget client .staged operation.index operation.target

/-- `SafeRoot.move` of the target to the removed files. -/
def moveTarget (operation : Operation) : Action Unit := do
  .check fun state => demand (state.evidence .removed operation.index).isNone (.fileSystem "The destination exists")
  reserveRemoved site operation.index operation.target
  let reservation ← .observe fun state => state.evidence .removed operation.index
  .handle (moveToRemoved client operation.index operation.target) fun error => do
    let current ← .observe fun state => state.evidence .removed operation.index
    if current = reservation then unlinkEvidence .removed operation.index else .ret ()
    .raise error

def mutateTarget (operation : Operation) (reservations : List (Nat × AdapterFile))
    (next : List (Nat × AdapterFile) → Action Unit) (failed : List (Nat × AdapterFile) → InstallError → Action Unit) :
    Action Unit :=
  match operation.operation with
  | .create =>
    let reserve : Action (Option AdapterFile) := do
      .check fun state => demand (state.targets operation.target).isNone (.fileSystem "The target exists")
      reserveTarget site client operation.target
      .observe fun state => state.targets operation.target
    reserve.attempt
      (fun reservation =>
        let known := (reservation.map fun file => (operation.index, file)).toList ++ reservations
        (installStaged client operation).attempt (fun _ => next known) (failed known))
      (failed reservations)
  | .replace => (installStaged client operation).attempt (fun _ => next reservations) (failed reservations)
  | .delete => (moveTarget site client operation).attempt (fun _ => next reservations) (failed reservations)

/-! Rollback. -/

/-- One round of `_rollback`; it gives up on a target that is in no known state. -/
def rollbackTarget (mutation : FileMutation) (operation : Operation) (reservations : List (Nat × AdapterFile)) :
    Action Bool := do
  heartbeat
  let current ← .observe fun state => state.targets mutation.path
  if current = mutation.expected then .ret true
  else match mutation.expected with
    | some expected => do
      let kind := if operation.operation = .delete then EvidenceKind.removed else .verified
      let source ← .observe fun state => state.evidenceHash kind operation.index
      if source = some expected.contentHash ∧ current.map (·.contentHash) = mutation.desired then do
        replaceTarget client kind operation.index mutation.path
        .ret true
      else .ret false
    | none => match current with
      | none => .ret true
      | some file =>
        if some file.contentHash = mutation.desired ∨ (operation.index, file) ∈ reservations then do
          unlinkTarget client mutation.path
          .ret true
        else .ret false

def rollbackTargets (reservations : List (Nat × AdapterFile)) : List (FileMutation × Operation) → Action Bool
  | [] => .ret true
  | (mutation, operation) :: rest => do
    let restored ← rollbackTarget client mutation operation reservations
    if restored then rollbackTargets reservations rest else .ret false

/-- `_rollback` of the first mutations; an exception makes it incomplete. -/
def rollback (mutations : List FileMutation) (applied : Nat) (reservations : List (Nat × AdapterFile)) : Action Bool :=
  .handle
    (do
      let restored ← rollbackTargets client reservations ((mutations.zip (operationsOf mutations)).take applied).reverse
      if restored then do
        heartbeat
        .observe fun state => allMatch (operationsOf mutations) .expected state
      else .ret false)
    fun _ => .ret false

/-! Resolution. -/

/-- The evidence files there are; their bytes are the recorded ones. -/
def collectArtifacts (operations : List Operation) (state : ProjectState) : Except InstallError (List (EvidenceKind × Nat)) :=
  let all := operations.reverse.flatMap fun operation => operation.artifacts.map fun artifact => (operation.index, artifact)
  let present := all.filter fun entry => (state.evidence entry.2.1 entry.1).isSome
  if present.all fun entry => state.evidenceHash entry.2.1 entry.1 == entry.2.2 then
    .ok (present.map fun entry => (entry.2.1, entry.1))
  else .error (.recoveryRequired "Transaction evidence changed before cleanup")

def removeDirectories : Action Unit := do
  heartbeat
  heartbeat
  heartbeat
  heartbeat

def resolveAndCleanup (mutations : List FileMutation) (resolved : ResolvedState)
    (planTargets : List (String × Option AdapterFile)) : Action Unit := do
  let operations := operationsOf mutations
  heartbeat
  requireUnchangedIntent client operations
  .check fun state => demand (allMatch operations resolved state)
    (.recoveryRequired "Resolved adapter targets changed before cleanup")
  requirePlanTargetStates planTargets mutations mutations.length "Plan target changed before cleanup"
  let artifacts ← .check (collectArtifacts operations)
  heartbeat
  requireUnchangedIntent client operations
  .check fun state => demand (allMatch operations resolved state)
    (.recoveryRequired "Resolved adapter targets changed immediately before intent removal")
  requirePlanTargetStates planTargets mutations mutations.length "Plan target changed immediately before intent removal"
  retireIntent client operations
  .forEach (fun artifact => do
    heartbeat
    unlinkEvidence artifact.1 artifact.2) artifacts
  removeDirectories

/-! Application. -/

def abandon (mutations : List FileMutation) (applied : Nat) (reservations : List (Nat × AdapterFile)) (error : InstallError) :
    Action Unit := do
  let restored ← rollback client mutations applied reservations
  .ensure restored (.recoveryRequired "Adapter transaction failed and rollback was incomplete")
  resolveAndCleanup client mutations .expected []
  .raise error

def beforeMutation (mutations : List FileMutation) (planTargets : List (String × Option AdapterFile)) (authority : Action Unit)
    (mutation : FileMutation) (index : Nat) : Action Unit := do
  heartbeat
  if index = 0 ∨ index + 1 = mutations.length then
    requirePlanTargetStates planTargets mutations index (if index = 0 then
      "Plan target changed immediately before the first mutation"
      else "Plan target changed immediately before manifest commit")
  else .ret ()
  authority
  .check fun state => demand (state.targets mutation.path == mutation.expected)
    (.recoveryConflict ("Precondition changed before mutation: " ++ mutation.path))

def mutateTargets (mutations : List FileMutation) (planTargets : List (String × Option AdapterFile)) (authority : Action Unit) :
    List (FileMutation × Operation) → List (Nat × AdapterFile) → Action Unit
  | [], reservations =>
    let finish : Action Unit := do
      heartbeat
      requirePlanTargetStates planTargets mutations mutations.length "Plan target changed before final transaction resolution"
      .check fun state => demand (allMatch (operationsOf mutations) .postimage state) (.recoveryRequired "Target postimage mismatch")
    finish.attempt .ret (abandon client mutations mutations.length reservations)
  | (mutation, operation) :: rest, reservations =>
    (beforeMutation mutations planTargets authority mutation operation.index).attempt
      (fun _ => mutateTarget site client operation reservations
        (fun known => mutateTargets mutations planTargets authority rest known)
        fun known => abandon client mutations (operation.index + 1) known)
      (abandon client mutations operation.index reservations)

/-- What `apply` refuses before it makes a directory. -/
def accepts (mutations : List FileMutation) (planTargets : List (String × Option AdapterFile)) : Except InstallError Unit := do
  demand (mutations.map fun mutation => site.collisionKey mutation.path).Nodup (.value "Transaction target paths collide")
  demand ((mutations.getLast?.map (·.path)) == some (manifestPath site client))
    (.value "The manifest mutation must be ordered last")
  demand (planTargets.map fun target => site.collisionKey target.1).Nodup (.value "Plan target snapshot paths collide")
  demand (mutations.all fun mutation => planTargets.lookup mutation.path == some mutation.expected)
    (.value "Mutation lacks its exact plan target snapshot")
  demand (mutations.all fun mutation => mutation.expected.isSome || mutation.desired.isSome)
    (.value "Absent-to-absent is not a mutation")

def apply (mutations : List FileMutation) (targetSnapshots : List (String × Option AdapterFile)) (authority : Action Unit) :
    Action (List String) :=
  if mutations.isEmpty then .ret []
  else do
    let planTargets := if targetSnapshots.isEmpty then mutations.map fun mutation => (mutation.path, mutation.expected)
      else targetSnapshots
    .check fun _ => accepts site client mutations planTargets
    requirePlanTargetStates planTargets mutations 0 "Precondition changed before staging"
    makeDirectories
    .forEach (fun entry => stageMutation entry.1 entry.2) mutations.zipIdx
    heartbeat
    writeIntent client (operationsOf mutations)
    mutateTargets site client mutations planTargets authority (mutations.zip (operationsOf mutations)) []
    resolveAndCleanup client mutations .postimage planTargets
    .ret (mutations.map (·.path))

/-! Recovery. -/

structure RecoveryTransition where
  manifestBefore : Option String
  manifestAfter : Option String
  operationsDigest : String
deriving DecidableEq

def recoveryTransition (operations : List Operation) : Except InstallError RecoveryTransition :=
  match operations.find? fun operation => operation.target == manifestPath site client with
  | none => .error (.recoveryConflict "Transaction intent does not include its manifest")
  | some operation => .ok ⟨operation.expected, operation.postimage, site.operationsDigest client operations⟩

/-- The check of `_validate_recovery_internal_files` for one operation. -/
def internalFilesValid (state : ProjectState) (operation : Operation) : Bool :=
  let target := state.hashAt operation.target
  operation.artifacts.all fun artifact =>
    match state.evidence artifact.1 operation.index with
    | some file => some file.contentHash == artifact.2
    | none => target == operation.expected || (artifact.1 == .staged && target == operation.postimage)

/-- `_validate_recovery_internal_files` -/
def validateInternalFiles (operations : List Operation) : Action Unit := .check fun state =>
  demand (operations.all (internalFilesValid state)) (.recoveryConflict "Transaction evidence was modified or is missing")

/-- `_fence_recovery_step` -/
def fence (operations : List Operation) : Action Unit := do
  heartbeat
  requireUnchangedIntent client operations

def requireRecordedTarget (operation : Operation) : Action Unit := .check fun state =>
  demand (state.hashAt operation.target == operation.expected || state.hashAt operation.target == operation.postimage)
    (.recoveryConflict "A recovery target matches neither recorded state")

def preimageEvidence (operation : Operation) (state : ProjectState) : Except InstallError EvidenceKind :=
  let kinds := (if operation.operation = .delete then [EvidenceKind.removed] else []) ++ [.verified]
  let rec choose : List EvidenceKind → Except InstallError EvidenceKind
    | [] => .error (.recoveryConflict "Recovery preimage backup is invalid")
    | kind :: rest => match state.evidence kind operation.index with
      | none => choose rest
      | some file => if some file.contentHash = operation.expected then .ok kind
        else .error (.recoveryConflict "Recovery preimage evidence was modified")
  choose kinds

def recoverTarget (operations : List Operation) (authority : Action Unit) (operation : Operation) : Action Unit := do
  fence client operations
  requireRecordedTarget operation
  let settled ← .observe fun state => state.hashAt operation.target == operation.expected
  if settled then .ret ()
  else match operation.expected with
    | none => do
      .check fun state => demand (state.hashAt operation.target == operation.postimage)
        (.recoveryConflict "Create target changed before recovery removal")
      authority
      unlinkTarget client operation.target
      .check fun state => demand (state.targets operation.target).isNone
        (.recoveryConflict "Create target remains after recovery removal")
    | some _ => do
      let kind ← .check (preimageEvidence operation)
      requireRecordedTarget operation
      .check fun state => demand (state.hashAt operation.target == operation.postimage)
        (.recoveryConflict "Recovery target changed before preimage restore")
      .check fun state => demand (state.evidenceHash kind operation.index == operation.expected)
        (.recoveryConflict "Recovery preimage changed before restore")
      authority
      replaceTarget client kind operation.index operation.target
      .check fun state => demand (state.hashAt operation.target == operation.expected)
        (.recoveryConflict "Recovery preimage restore did not hold")

/-- The removal of one evidence file by `_cleanup_recovery_artifacts`. -/
def cleanArtifact (index : Nat) (artifact : EvidenceKind × Option String) : Action Unit := do
  heartbeat
  let present ← .observe fun state => (state.evidence artifact.1 index).isSome
  if present then do
    .check fun state => demand (state.evidenceHash artifact.1 index == artifact.2)
      (.recoveryConflict "Transaction evidence changed before cleanup")
    unlinkEvidence artifact.1 index
  else .ret ()

/-- `_resolve_recovered_transaction` -/
def resolveRecovered (operations : List Operation) (resolved : ResolvedState) (authority : Action Unit) : Action Unit := do
  fence client operations
  .check fun state => demand (allMatch operations resolved state)
    (.recoveryConflict "Recovered targets changed before transaction resolution")
  validateInternalFiles operations
  fence client operations
  validateInternalFiles operations
  .check fun state => demand (allMatch operations resolved state)
    (.recoveryConflict "Recovered targets changed immediately before intent removal")
  requireUnchangedIntent client operations
  authority
  .check fun state => demand (allMatch operations resolved state)
    (.recoveryConflict "Recovered targets changed immediately before intent removal")
  retireIntent client operations
  .forEach (fun operation => .forEach (cleanArtifact operation.index) operation.artifacts) operations.reverse
  removeDirectories

/-- `recover_transaction` behind its inspection. -/
def recoverOperations (operations : List Operation) (authority : Action Unit) : Action (List String) := do
  authority
  fence client operations
  validateInternalFiles operations
  let finished ← .observe (allMatch operations .postimage)
  if finished then do
    resolveRecovered client operations .postimage authority
    .ret (operations.map (·.target))
  else do
    .check fun state => demand (operations.all fun operation =>
        operation.target != manifestPath site client || state.hashAt operation.target == operation.expected)
      (.recoveryConflict "Committed manifest has an incomplete target set")
    .forEach requireRecordedTarget operations
    .forEach (recoverTarget client operations authority) operations.reverse
    resolveRecovered client operations .expected authority
    .ret (operations.map (·.target))

def recoverTransaction (expected : Option RecoveryTransition) (authority : Action Unit) : Action (List String) := do
  let found ← .check (inspectTransactions site client)
  match found with
  | none => .ret []
  | some operations => do
    heartbeat
    let current ← .check (inspectTransactions site client)
    .ensure (current == some operations) (.recoveryConflict "Transaction set changed before recovery")
    let transition ← .check fun _ => recoveryTransition site client operations
    .ensure (expected.isNone || expected == some transition)
      (.recoveryConflict "Transaction intent changed after authority preflight")
    recoverOperations site client operations authority
end
end Workctx.Installs
