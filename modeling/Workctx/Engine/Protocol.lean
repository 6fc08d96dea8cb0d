import Workctx.Engine.Append

/-! The transaction protocol: `apply` and `recover` under the workspace lock. -/

namespace Workctx.Engine
open Workctx.Durable Workctx.Text Workctx.Domain Workctx.Staging Workctx.Ledger

/-! Events. -/

def auditOperationOf (item : IntentTarget) : Except Failure AuditOperation :=
  match item.kind with
  | .replace => match item.contentHash, item.preimageHash with
    | none, _ => .error (.invalidValue "replacement intent is missing its postimage hash")
    | some contentHash, none => .ok (.create item.target contentHash)
    | some contentHash, some preimageHash => .ok (.update item.target preimageHash contentHash)
  | .move => match item.destination, item.contentHash with
    | some destination, some contentHash => .ok (.move item.target destination contentHash)
    | _, _ => .error (.invalidValue "move intent is incomplete")
  | .delete => match item.preimageHash with
    | none => .error (.invalidValue "delete intent is missing its preimage hash")
    | some preimageHash => .ok (.deleteGenerated item.target preimageHash)

def intentAuditOperations (intent : IntentRecord) : Except Failure (List AuditOperation) :=
  intent.targets.mapM auditOperationOf

def intentMatchesOperations (intent : IntentRecord) (operations : List AuditOperation) : Bool :=
  match intentAuditOperations intent with
  | .ok found => found == operations
  | .error _ => false

/-- `AuditEventContent` and `AuditEvent.seal` on typed fields. -/
@[irreducible] def sealEvent (platform : Platform) (content : AuditEvent) : Except Failure AuditEvent :=
  if content.contentValid platform then .ok { content with eventHash := content.expectedEventHash platform }
  else .error (.invalidValue "Audit event content is invalid")

/-- What a public call draws: the nonce of its lock, the name of its transaction directory, the
names of rebuilt postimages, and the readings of the clock. -/
structure Lease (platform : Platform) where
  nonce : String
  directory : String
  tokens : Nat → String
  analyzedAt : String
  sealedAt : String
  nonceValid : isNonce nonce = true
  named : isTransactionDirectory directory = true
  canonicalTime : platform.canonicalTimestamp sealedAt = some sealedAt

def proposalEvent {platform : Platform} (proposal : TransactionProposal platform) (time : String)
    (operations : List AuditOperation) (acknowledgedPaths : List String) (result : AuditResult) (prevHash : String) :
    Except Failure AuditEvent :=
  sealEvent platform
    { id := auditEventId proposal.id, proposalId := proposal.id, contextId := proposal.contextId, timestamp := time,
      actor := proposal.actor, action := .apply, result, baseRevision := prevHash, sourceRefs := proposal.sourceRefs,
      acknowledgedPaths, operations, prevHash, eventHash := "" }

def intentEvent (platform : Platform) (contextId time : String) (intent : IntentRecord) (prevHash : String) :
    Except Failure AuditEvent := do
  let operations ← intentAuditOperations intent
  sealEvent platform
    { id := auditEventId intent.transactionId, proposalId := intent.transactionId, contextId, timestamp := time,
      actor := .system recoveryActorId, action := .recovery, result := .rolledBack, baseRevision := prevHash,
      sourceRefs := [], acknowledgedPaths := [], operations, prevHash, eventHash := "" }

/-! The lock. A stale lock is archived before it is taken. -/

def acquireStep (nonce : String) : Step Disk Torn :=
  .atomic fun disk => if disk.lock.isNone then { disk with lock := some nonce } else disk

def acquire (nonce : String) : Action Unit := do
  .perform (acquireStep nonce)
  .check fun disk => demand (disk.lock == some nonce) .lockHeld

def releaseStep (nonce : String) : Step Disk Torn :=
  .atomic fun disk => if disk.lock = some nonce then { disk with lock := none } else disk

/-- `ContextLock.release`; a lost fence is not reported. -/
def release (nonce : String) : Action Unit :=
  .handle
    (do
      verifyLock nonce none
      .perform (releaseStep nonce))
    fun failure => match failure with
      | .lockFence _ => .ret ()
      | _ => .raise failure

/-- The projection is derived state; its failures only mark it stale. -/
def refreshProjection : Action Unit := .handle (.perform scratchStep) fun _ => .ret ()

section
variable (engine : TransactionEngine)

/-- Append an event and require the ledger to hold exactly it. -/
def recordEvent (nonce : String) (event : AuditEvent) : Action Unit := do
  let appended ← appendEvent engine nonce event
  .ensure (appended == event) (.transactionConflict "TXN-AUDIT-APPEND-UNCONFIRMED")

/-- An exception while an intent may be durable asks for recovery. -/
def pendingOr {α : Type} (failure : Failure) : Action α := do
  let pending ← .observe (inspectRecovery engine.workspace)
  if pending.state ≠ .clean then .raise .recoveryPending else .raise failure

/-! `apply` -/

def approvalDiagnostic : TransactionDiagnostic where
  code := "TXN-APPROVAL-REQUIRED"
  severity := .error
  message := "The proposal requires explicit runtime approval."
  path := none
  repairAction := some "Approve the reviewed proposal and retry."

section
variable (lease : Lease engine.workspace.platform) (proposal : TransactionProposal engine.workspace.platform)

def withApproval (approved : Bool) (requested : List String) (analysis : Analysis) : Analysis :=
  if (proposal.approvalRequired || !requested.isEmpty) && !approved then
    { analysis with diagnostics := analysis.diagnostics ++ [approvalDiagnostic] }
  else analysis

def Analysis.accepted (analysis : Analysis) : Except Failure CompiledProposal :=
  if analysis.valid then
    match analysis.compiled with
    | some compiled => .ok compiled
    | none => .error .proposalValidation
  else .error .proposalValidation

/-- What `apply` checks before it prepares: the head it builds on, the compiled proposal and the
report of the workspace as it is. -/
structure Preflight where
  head : String
  compiled : CompiledProposal
  baseline : ValidationReport

def preflight (approved : Bool) (requested : List String) : Action Preflight := do
  let inspection ← .observe (inspectRecovery engine.workspace)
  .ensure (inspection.state == .clean) .recoveryPending
  let events ← .check (readLedger engine)
  .ensure (!(events.any fun event => event.proposalId == proposal.id)) .duplicateProposal
  .ensure (proposal.baseRevision == headHash events) .staleRevision
  .perform scratchStep
  let analysis ← .check fun disk =>
    engine.analyze proposal requested lease.analyzedAt disk.canonical (headHash events)
  let compiled ← .check fun _ => (withApproval engine proposal approved requested analysis).accepted
  let baseline ← .check fun disk => engine.validateWorkspace false [] disk.canonical
  verifyLock lease.nonce none
  .ret ⟨headHash events, compiled, baseline⟩

inductive ApplyOutcome where
  | committed (event : AuditEvent) (diagnostics : List TransactionDiagnostic)
  | preimageChanged (event : AuditEvent)
  | postconditionFailed (event : AuditEvent) (diagnostics : List TransactionDiagnostic)

variable (flight : Preflight)

/-- The event of the proposal with an outcome, appended. -/
def conclude (result : AuditResult) (operations : List AuditOperation) : Action AuditEvent := do
  let event ← .check fun _ =>
    proposalEvent proposal lease.sealedAt operations flight.compiled.acknowledgedPaths result flight.head
  recordEvent engine lease.nonce event
  .ret event

/-- A target changed after validation: nothing was replaced, and the rollback is recorded. -/
def concludeChanged (intent : IntentRecord) : Action ApplyOutcome := do
  let operations ← .check fun _ => intentAuditOperations intent
  let event ← conclude engine lease proposal flight .rolledBack operations
  finalizeRollbackAfterAudit engine.workspace true lease.nonce proposal.id
  .ret (.preimageChanged event)

def concludeRolledBack (intent : IntentRecord) (diagnostics : List TransactionDiagnostic) : Action ApplyOutcome := do
  rollback engine.workspace true lease.nonce lease.tokens intent
  let event ← conclude engine lease proposal flight .rolledBack flight.compiled.auditOperations
  finalizeRollbackAfterAudit engine.workspace true lease.nonce proposal.id
  .ret (.postconditionFailed event diagnostics)

def concludeCommitted (diagnostics : List TransactionDiagnostic) : Action ApplyOutcome := do
  let event ← conclude engine lease proposal flight .committed flight.compiled.auditOperations
  finalizeAfterAudit engine.workspace true lease.nonce proposal.id
  .ret (.committed event (diagnostics.filter fun diagnostic => !isError diagnostic))

/-- The part of `apply` behind the durable intent. -/
def transact (intent : IntentRecord) : Action ApplyOutcome :=
  if intentMatchesOperations intent flight.compiled.auditOperations then do
    Staging.apply engine.workspace true lease.nonce intent
    let postconditions ← .check fun disk => engine.liveConditions proposal.postconditions disk.canonical
    let post ← .check fun disk =>
      engine.validateWorkspace true (strictValidationPaths flight.compiled) disk.canonical
    let diagnostics := baselineRelativeWorkspaceDiagnostics engine.workspace.platform flight.baseline post
      (strictValidationPaths flight.compiled)
    if diagnostics.any isError || postconditions.any isError then
      concludeRolledBack engine lease proposal flight intent (postconditions ++ diagnostics)
    else concludeCommitted engine lease proposal flight diagnostics
  else concludeChanged engine lease proposal flight intent

def appliedTargets (effects : List OperationEffect) : List String :=
  effects.flatMap fun effect => effect.target :: effect.destination.toList

structure ApplyResult where
  proposalId : String
  contextId : String
  baseRevision : String
  committedRevision : String
  appliedTargets : List String
  ledgerEventId : String
  ledgerEventHash : String
  ledgerSourceRefs : List String
  diagnostics : List TransactionDiagnostic

def applyReceipt (event : AuditEvent) (diagnostics : List TransactionDiagnostic) : ApplyResult where
  proposalId := proposal.id
  contextId := proposal.contextId
  baseRevision := proposal.baseRevision
  committedRevision := event.eventHash
  appliedTargets := appliedTargets flight.compiled.effects
  ledgerEventId := event.id
  ledgerEventHash := event.eventHash
  ledgerSourceRefs := event.sourceRefs
  diagnostics := diagnostics

/-- `apply` while its lease holds the lock. -/
def applyLocked (approved : Bool) (requested : List String) : Action ApplyResult := do
  let flight ← preflight engine lease proposal approved requested
  let intent ← prepare engine.workspace lease.nonce proposal.id lease.nonce lease.directory flight.compiled.writes
  let outcome ← .handle (transact engine lease proposal flight intent) fun failure => pendingOr engine failure
  refreshProjection
  match outcome with
  | .preimageChanged _ => .raise .preimageChanged
  | .postconditionFailed _ _ => .raise .postconditionRollback
  | .committed event diagnostics => .ret (applyReceipt engine proposal flight event diagnostics)

def apply (approved : Bool) (requested : List String) : Action ApplyResult := do
  acquire lease.nonce
  .cleanup (applyLocked engine lease proposal approved requested) (release lease.nonce)

end

/-! `recover` -/

inductive RecoveryStrategy where
  | complete
  | rollback
deriving DecidableEq

inductive RecoveryOutcome where
  | rolledBack
  | alreadyFinalized
deriving DecidableEq

structure RecoveryResult where
  strategy : RecoveryStrategy
  outcome : RecoveryOutcome
  transactionId : String
  committedRevision : String
  appliedTargets : List String
  ledgerEventId : String
  ledgerEventHash : String
deriving DecidableEq

def recoverySelector (proposalId transactionId : Option String) : Except Failure (Option String) := do
  demand (proposalId.isNone || transactionId.isNone || proposalId == transactionId)
    (.transactionConflict "TXN-RECOVERY-TRANSACTION-MISMATCH")
  .ok (transactionId <|> proposalId)

def auditAppliedTargets (operations : List AuditOperation) : List String :=
  operations.flatMap fun operation => match operation with
    | .create target _ => [target]
    | .update target _ _ => [target]
    | .move source destination _ => [source, destination]
    | .deleteGenerated target _ => [target]

def finalizedReceipt (strategy : RecoveryStrategy) (transactionId : String) (event : AuditEvent) : RecoveryResult where
  strategy := strategy
  outcome := .alreadyFinalized
  transactionId := transactionId
  committedRevision := event.eventHash
  appliedTargets := if event.result = .committed then auditAppliedTargets event.operations else []
  ledgerEventId := event.id
  ledgerEventHash := event.eventHash

def alreadyFinalized (strategy : RecoveryStrategy) (transactionId : Option String) : Action RecoveryResult :=
  match transactionId with
  | none => .raise (.transactionConflict "TXN-NO-RECOVERY-PENDING")
  | some transactionId => do
    let event ← .check (findEventByProposalId engine transactionId)
    match event with
    | none => .raise (.transactionConflict "TXN-RECOVERY-NOT-FOUND")
    | some event => do
      refreshProjection
      .ret (finalizedReceipt strategy transactionId event)

def finalizeExistingRecovery (nonce : String) (inspection : RecoveryInspection) (intent : IntentRecord)
    (event : AuditEvent) : Action Unit := do
  let operations ← .check fun _ => intentAuditOperations intent
  .ensure (event.operations == operations) .recoveryPending
  if event.result = .committed then do
    .ensure (inspection.state == .fullyReplacedAwaitingAudit) .recoveryPending
    finalizeRecoveryAfterAudit engine.workspace false nonce event.proposalId
  else do
    .ensure (inspection.state == .prepared) .recoveryPending
    finalizeRollbackAfterAudit engine.workspace false nonce event.proposalId

/-- What `recover` has decided before it changes anything. -/
inductive Decision where
  | finished (result : RecoveryResult)
  | finalize (inspection : RecoveryInspection) (intent : IntentRecord) (event : AuditEvent)
  | undo (intent : IntentRecord) (event : AuditEvent)

section
variable (lease : Lease engine.workspace.platform) (strategy : RecoveryStrategy) (proposalId transactionId : Option String)

def decideIntent (head : String) (inspection : RecoveryInspection) (intent : IntentRecord) : Action Decision := do
  let selected ← .check fun _ => recoverySelector proposalId transactionId
  .ensure (selected.all (· == intent.transactionId)) (.transactionConflict "TXN-RECOVERY-TRANSACTION-MISMATCH")
  let existing ← .check (findEventByProposalId engine intent.transactionId)
  match existing with
  | some event => .ret (.finalize inspection intent event)
  | none => do
    let event ← .check fun _ => intentEvent engine.workspace.platform engine.contextId lease.sealedAt intent head
    .ret (.undo intent event)

def decideRecovery : Action Decision := do
  let events ← .check (readLedger engine)
  let inspection ← .observe (inspectRecovery engine.workspace)
  if inspection.state = .clean then do
    let finalized ← .check fun _ => recoverySelector proposalId transactionId
    let result ← alreadyFinalized engine strategy finalized
    .ret (.finished result)
  else if inspection.state = .invalidIntent || inspection.state = .recoveryConflict then .raise .recoveryPending
  else match inspection.intent with
    | none => .raise .recoveryPending
    | some intent => decideIntent engine lease proposalId transactionId (headHash events) inspection intent

def undoIntent (intent : IntentRecord) (event : AuditEvent) : Action Unit := do
  rollbackRecovery engine.workspace false lease.nonce lease.tokens intent
  let current ← .check (readLedger engine)
  .ensure (headHash current == event.prevHash) .recoveryPending
  recordEvent engine lease.nonce event
  finalizeRollbackAfterAudit engine.workspace true lease.nonce intent.transactionId

def rolledBackReceipt (intent : IntentRecord) (event : AuditEvent) : RecoveryResult where
  strategy := strategy
  outcome := .rolledBack
  transactionId := intent.transactionId
  committedRevision := event.eventHash
  appliedTargets := []
  ledgerEventId := event.id
  ledgerEventHash := event.eventHash

def resolve : Decision → Action RecoveryResult
  | .finished result => .ret result
  | .finalize inspection intent event => do
    finalizeExistingRecovery engine lease.nonce inspection intent event
    refreshProjection
    .ret (finalizedReceipt strategy intent.transactionId event)
  | .undo intent event => do
    undoIntent engine lease intent event
    refreshProjection
    .ret (rolledBackReceipt strategy intent event)

/-- The handlers of `recover`. -/
def settle {α : Type} (mutationStarted : Bool) (failure : Failure) : Action α :=
  match failure with
  | .recoveryPending => .raise .recoveryPending
  | .ledgerIntegrity => .raise .ledgerIntegrity
  | .transactionConflict code => if mutationStarted then pendingOr engine failure else .raise (.transactionConflict code)
  | _ => pendingOr engine failure

/-- `recover` while its lease holds the lock. -/
def recoverLocked : Action RecoveryResult :=
  .attempt (decideRecovery engine lease strategy proposalId transactionId)
    (fun decision => .handle (resolve engine lease strategy decision) fun failure => settle engine true failure)
    fun failure => settle engine false failure

def recover : Action RecoveryResult := do
  acquire lease.nonce
  .cleanup (recoverLocked engine lease strategy proposalId transactionId) (release lease.nonce)

end
end
end Workctx.Engine
