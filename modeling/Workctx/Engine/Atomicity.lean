import Workctx.Engine.Recovery
import Workctx.Staging.Window

/-! All or nothing. Wherever a transaction and its recoveries stop, the ledger and the images
agree: the intent is gone only where one outcome is recorded and every file shows it. -/

namespace Workctx.Engine
open Workctx.Durable Workctx.Text Workctx.Domain Workctx.Staging Workctx.Ledger List

section
variable {engine : TransactionEngine} {plan : Plan engine.workspace} {start disk other : Disk}

/-! What a transaction leaves. -/

/-- The ledger has one event since the start. It is of the plan, with this result. -/
def Logged (plan : Plan engine.workspace) (start : Disk) (result : AuditResult) (disk : Disk) : Prop :=
  ∃ event, event.proposalId = plan.transactionId ∧ event.result = result ∧ disk.ledger = start.ledger ++ [event]

def Images (plan : Plan engine.workspace) (result : AuditResult) (disk : Disk) : Prop :=
  match result with
  | .committed => plan.Done disk
  | .rolledBack => plan.Undone disk

def Concluded (plan : Plan engine.workspace) (start disk : Disk) : Prop :=
  ∃ result, Logged plan start result disk ∧ Images plan result disk

/-- The intent is published. The ledger has no outcome yet, or the one that the images show. -/
structure Underway (plan : Plan engine.workspace) (start disk : Disk) : Prop where
  published : plan.Published start disk
  chained : Chained engine disk.ledger
  outcome : disk.ledger = start.ledger ∨ Concluded plan start disk

/-- The intent is gone, the outcome is recorded, and the other files are as they were. -/
structure Finished (plan : Plan engine.workspace) (start disk : Disk) : Prop where
  absent : disk.files .intent = none
  chained : Chained engine disk.ledger
  elsewhere : ∀ path ∉ plan.paths, disk.canonical path = start.canonical path
  concluded : Concluded plan start disk

def Transacting (plan : Plan engine.workspace) (start disk : Disk) : Prop := Underway plan start disk ∨ Finished plan start disk

def Concluding (plan : Plan engine.workspace) (start disk : Disk) : Prop := Underway plan start disk ∧ Concluded plan start disk

theorem Concluded.event (concluded : Concluded plan start disk) :
    ∃ event ∈ disk.ledger, event.proposalId = plan.transactionId := by
  obtain ⟨_, ⟨event, own, _, ledger⟩, _⟩ := concluded
  refine ⟨event, ?_, own⟩
  rw [ledger]
  exact mem_append_right _ mem_cons_self

theorem Images.congr {result : AuditResult} (kept : Kept disk other) (images : Images plan result disk) :
    Images plan result other := by
  cases result with
  | committed => exact fun planned member => (Planned.done_congr fun path _ => kept path).mpr (images planned member)
  | rolledBack => exact fun planned member => (Planned.undone_congr fun path _ => kept path).mpr (images planned member)

theorem Concluded.congr (kept : Kept disk other) (ledger : other.ledger = disk.ledger) (concluded : Concluded plan start disk) :
    Concluded plan start other := by
  obtain ⟨result, ⟨event, own, outcome, last⟩, images⟩ := concluded
  exact ⟨result, ⟨event, own, outcome, ledger.trans last⟩, images.congr kept⟩

theorem Finished.congr (kept : Kept disk other) (intent : other.files .intent = disk.files .intent)
    (ledger : other.ledger = disk.ledger) (finished : Finished plan start disk) : Finished plan start other :=
  ⟨intent.trans finished.absent, ledger ▸ finished.chained, fun path outside => (kept path).trans (finished.elsewhere path outside),
    finished.concluded.congr kept ledger⟩

theorem Transacting.locked (held : Option String) (transacting : Transacting plan start disk) :
    Transacting plan start { disk with lock := held } := by
  have kept : Kept disk { disk with lock := held } := fun _ => rfl
  rcases transacting with underway | finished
  · exact .inl ⟨underway.published.locked held, underway.chained, underway.outcome.imp_right (Concluded.congr kept rfl)⟩
  · exact .inr (finished.congr kept rfl rfl)

theorem Underway.steady (underway : Underway plan start disk) (pending : disk.ledger = start.ledger)
    (steady : plan.Steady disk other) : Underway plan start other ∧ other.ledger = start.ledger := by
  have ledger := steady.agrees.ledger.trans pending
  refine ⟨⟨underway.published.steady steady, ?_, .inl ledger⟩, ledger⟩
  rw [steady.agrees.ledger]
  exact underway.chained

/-! Finalization. -/

/-- The program removes the intent of a concluded transaction. -/
def Finishes (plan : Plan engine.workspace) (start : Disk) (program : Action Unit) : Prop :=
  Triple False (Concluding plan start) program (fun _ => Transacting plan start) (Transacting plan start)

theorem Finishes.bind {α : Type} {program : Action α} {next : α → Action Unit} (keeps : Keeps (Concluding plan start) program)
    (later : ∀ value, Finishes plan start (next value)) : Finishes plan start (program.bind next) :=
  Triple.bind (keeps.stopping fun _ now => .inl now.1) later

theorem removeIntentAndStaging_finishes {validated : ValidatedIntent} :
    Finishes plan start (removeIntentAndStaging validated) := by
  have unlinked : Triple False (Concluding plan start) (.perform (unlinkStep .intent) : Action Unit)
      (fun _ => Finished plan start) (Transacting plan start) := by
    refine Triple.perform fun disk now => ?_
    obtain ⟨underway, concluded⟩ := now
    have kept : Kept disk (disk.set .intent none) := fun path => set_files_other disk (by simp) none
    have finished : Finished plan start (disk.set .intent none) := by
      refine ⟨set_files_self .., underway.chained, fun path outside => ?_, concluded.congr kept rfl⟩
      exact (kept path).trans (underway.published.elsewhere path outside)
    exact ⟨finished, .inl underway, .inr finished, fun _ => .inl underway⟩
  refine Triple.bind unlinked fun _ => Triple.weaken (removeOwnedDirectory_triple ?_) (fun _ => id) (fun _ _ => .inr) fun _ => .inr
  intro disk other finished same _ ledger
  exact finished.congr (fun path => same _ canonical_not_asset) (same _ intent_not_asset) ledger

variable {cached nonceFromIntent : Bool} {lock nonce transactionId : String}

theorem finalizeApplied_finishes :
    Finishes plan start (finalizeApplied engine.workspace cached lock transactionId nonceFromIntent) :=
  .bind loadOwned_keeps fun _ => .bind (.forEach fun _ _ => .check) fun _ => .bind verifyLock_keeps fun _ =>
    removeIntentAndStaging_finishes

theorem finalizeRollbackAfterAudit_finishes :
    Finishes plan start (finalizeRollbackAfterAudit engine.workspace cached lock transactionId) :=
  .bind loadOwned_keeps fun _ => .bind (.forEach fun _ _ => .check) fun _ => .bind verifyLock_keeps fun _ =>
    removeIntentAndStaging_finishes

/-! Recording the outcome. -/

theorem sealEvent_valid {platform : Platform} {content event : AuditEvent}
    (actor : Actor.ofValue content.actor.data = some content.actor)
    (timestamp : platform.canonicalTimestamp content.timestamp = some content.timestamp)
    (sourceRefs : ∀ ref ∈ content.sourceRefs, platform.validateDurableReference ref = some ref)
    (done : sealEvent platform content = .ok event) :
    event.Valid platform ∧ event.proposalId = content.proposalId ∧ event.result = content.result := by
  unfold sealEvent at done
  split at done
  · next valid =>
    cases done
    exact ⟨⟨actor, timestamp, sourceRefs, valid, rfl⟩, rfl, rfl⟩
  · cases done

section
variable {event : AuditEvent} (fresh : ∀ other ∈ start.ledger, other.proposalId ≠ plan.transactionId)
  (underway : Underway plan start disk) (pending : disk.ledger = start.ledger)
include fresh underway pending

theorem recordEvent_concludes (valid : event.Valid engine.workspace.platform) (own : event.proposalId = plan.transactionId)
    (images : Images plan event.result disk) :
    Triple False (fun now => now = disk) (recordEvent engine nonce event) (fun _ => Concluding plan start)
      (Transacting plan start) := by
  have appended : Chained engine (withEvent disk event).ledger → Concluding plan start (withEvent disk event) := by
    intro chained
    have ledger : (withEvent disk event).ledger = start.ledger ++ [event] := by rw [withEvent, pending]
    have concluded : Concluded plan start (withEvent disk event) :=
      ⟨event.result, ⟨event, own, rfl, ledger⟩, images.congr fun _ => rfl⟩
    exact ⟨⟨underway.published.congr rfl rfl, chained, .inr concluded⟩, concluded⟩
  have unknown : ∀ other ∈ disk.ledger, other.proposalId ≠ event.proposalId := by
    rw [pending, own]
    exact fresh
  have append : Triple False (fun now => now = disk) (appendEvent engine nonce event)
      (fun committed now => committed = event ∧ now = withEvent disk event ∧ Chained engine now.ledger)
      (fun now => Appending disk event now ∧ Chained engine now.ledger) :=
    appendEvent_triple underway.chained valid unknown False.elim
  have landed : ∀ (committed : AuditEvent) (now : Disk),
      committed = event ∧ now = withEvent disk event ∧ Chained engine now.ledger → Concluding plan start now := by
    rintro committed now ⟨_, same, chained⟩
    rw [same] at chained ⊢
    exact appended chained
  have stopped : ∀ now, Appending disk event now ∧ Chained engine now.ledger → Transacting plan start now := by
    rintro now ⟨same | landed, chained⟩
    · rw [same]
      exact .inl underway
    · rw [landed] at chained ⊢
      exact .inl (appended chained).1
  exact Triple.bind (append.weaken (fun _ => id) landed stopped) fun committed =>
    Keeps.ensure.stopping fun _ now => .inl now.1

variable {lease : Lease engine.workspace.platform} {proposal : TransactionProposal engine.workspace.platform} {flight : Preflight}

theorem conclude_concludes (result : AuditResult) {operations : List AuditOperation} (own : proposal.id = plan.transactionId)
    (images : Images plan result disk) :
    Triple False (fun now => now = disk) (conclude engine lease proposal flight result operations)
      (fun _ => Concluding plan start) (Transacting plan start) := by
  have stopped : ∀ now, now = disk → Transacting plan start now := fun now same => same ▸ .inl underway
  refine Triple.bind (Triple.check_keep stopped False.elim) fun event => Triple.of_each fun now seen => ?_
  obtain ⟨same, sealed⟩ := seen
  obtain ⟨valid, identified, outcome⟩ := sealEvent_valid proposal.actorValid lease.canonicalTime proposal.references sealed
  rw [same]
  rw [← show event.result = result from outcome] at images
  exact Triple.bind (recordEvent_concludes fresh underway pending valid (identified.trans own) images) fun _ =>
    Triple.ret fun _ => id

/-! `apply` behind the intent. -/

theorem concludeCommitted_leads {diagnostics : List TransactionDiagnostic} (own : proposal.id = plan.transactionId)
    (done : plan.Done disk) :
    LeadsTo (Transacting plan start) disk (concludeCommitted engine lease proposal flight diagnostics) :=
  Triple.bind (conclude_concludes fresh underway pending .committed own done) fun _ =>
    Triple.bind finalizeApplied_finishes fun _ => Keeps.ret

theorem concludeChanged_leads {intent : IntentRecord} (own : proposal.id = plan.transactionId) (undone : plan.Undone disk) :
    LeadsTo (Transacting plan start) disk (concludeChanged engine lease proposal flight intent) :=
  .find (.inl underway) .check_at fun _ _ =>
    Triple.bind (conclude_concludes fresh underway pending .rolledBack own undone) fun _ =>
      Triple.bind finalizeRollbackAfterAudit_finishes fun _ => Keeps.ret

theorem concludeRolledBack_leads {diagnostics : List TransactionDiagnostic} (own : proposal.id = plan.transactionId) :
    LeadsTo (Transacting plan start) disk (concludeRolledBack engine lease proposal flight plan.record diagnostics) := by
  have backward : Triple False (fun now => now = disk)
      (rollback engine.workspace true lease.nonce lease.tokens plan.record) _ _ :=
    Plan.backward_triple underway.published False.elim
  refine .bind backward (fun now steady => .inl (underway.steady pending steady).1) fun _ now restored => ?_
  obtain ⟨rolled, unrecorded⟩ := underway.steady pending restored.1
  exact Triple.bind (conclude_concludes fresh rolled unrecorded .rolledBack own (Plan.undone_of_restored restored.2))
    fun _ => Triple.bind finalizeRollbackAfterAudit_finishes fun _ => Keeps.ret

theorem transact_leads (apart : ∀ planned ∈ plan.operations, planned.HashesApart engine.workspace.platform)
    (own : proposal.id = plan.transactionId) (undone : plan.Undone disk) :
    LeadsTo (Transacting plan start) disk (transact engine lease proposal flight plan.record) := by
  have forward : Triple False (fun now => now = disk) (Staging.apply engine.workspace true lease.nonce plan.record) _ _ :=
    Plan.forward_triple underway.published False.elim
  unfold transact
  split
  · refine .bind forward (fun now steady => .inl (underway.steady pending steady).1) fun _ now done => ?_
    obtain ⟨replaced, still⟩ := underway.steady pending done.1
    refine .find (.inl replaced) .check_at fun postconditions _ => .find (.inl replaced) .check_at fun post _ => ?_
    show LeadsTo _ now (if (_ : Bool) = true then _ else _)
    split
    · exact concludeRolledBack_leads fresh replaced still own
    · exact concludeCommitted_leads fresh replaced still own (Plan.done_of_applied done.1.shapes apart done.2)
  · exact concludeChanged_leads fresh underway pending own undone

end

/-! `recover` -/

section
variable {lease : Lease engine.workspace.platform} {strategy : RecoveryStrategy} {proposalId selected : Option String}
  {decision : Decision} {inv : Disk → Prop}

theorem resolve_idle (idle : (inspectRecovery engine.workspace disk).intent = none) (holds : inv disk)
    (reads : decision.Reads lease disk) : LeadsTo inv disk (resolve engine lease strategy decision) := by
  cases decision with
  | finished result => exact .of_keeps .ret holds
  | finalize inspection intent event => cases idle.symm.trans reads.1
  | undo intent event => cases idle.symm.trans reads.1

theorem Underway.inspected {record : IntentRecord} (underway : Underway plan start disk)
    (inspected : (inspectRecovery engine.workspace disk).intent = some record) : record = plan.record := by
  unfold inspectRecovery at inspected
  rw [underway.published.intent] at inspected
  cases loaded : loadIntent engine.workspace false disk with
  | error failure =>
    rw [loaded] at inspected
    cases inspected
  | ok pair =>
    rw [loaded] at inspected
    cases inspected
    exact ((plan.loadIntent_iff underway.published.intent).mp loaded).1

theorem Underway.found {found : Option AuditEvent} (underway : Underway plan start disk)
    (read : findEventByProposalId engine transactionId disk = .ok found) :
    findUnique disk.ledger (fun event => event.proposalId == transactionId) = .ok found := by
  obtain ⟨_, read⟩ := demand_bind_ok.mp read
  obtain ⟨events, verified, read⟩ := except_bind_ok.mp read
  rw [(readLedger_ok underway.chained verified).1] at read
  exact read

theorem refreshed {result : RecoveryResult} : Keeps inv (do
    refreshProjection
    .ret result : Action RecoveryResult) := .bind refreshProjection_keeps fun _ => .ret

section
variable (fresh : ∀ other ∈ start.ledger, other.proposalId ≠ plan.transactionId) (underway : Underway plan start disk)
include fresh underway

theorem finalizeExistingRecovery_leads {inspection : RecoveryInspection} {event : AuditEvent}
    (read : findEventByProposalId engine plan.transactionId disk = .ok (some event)) :
    LeadsTo (Transacting plan start) disk (finalizeExistingRecovery engine lease.nonce inspection plan.record event) := by
  obtain ⟨member, same⟩ := findUnique_ok (underway.found read)
  have concluded : Concluded plan start disk := by
    refine underway.outcome.resolve_left fun pending => ?_
    rw [pending] at member
    exact fresh event member (beq_iff_eq.mp same)
  have finalized : Finishes plan start (finalizeExistingRecovery engine lease.nonce inspection plan.record event) := by
    refine .bind .check fun operations => .bind .ensure fun _ => ?_
    split
    · exact .bind .ensure fun _ => finalizeApplied_finishes
    · exact .bind .ensure fun _ => finalizeRollbackAfterAudit_finishes
  exact finalized.strengthen (fun now same => same ▸ ⟨underway, concluded⟩)

theorem undoIntent_leads {event : AuditEvent} {head : String}
    (read : findEventByProposalId engine plan.transactionId disk = .ok none)
    (sealed : intentEvent engine.workspace.platform engine.contextId lease.sealedAt plan.record head = .ok event) :
    LeadsTo (Transacting plan start) disk (undoIntent engine lease plan.record event) := by
  have unknown := findUnique_none (underway.found read)
  have pending : disk.ledger = start.ledger := by
    refine underway.outcome.resolve_right fun concluded => ?_
    obtain ⟨last, member, same⟩ := concluded.event
    have absent := unknown last member
    rw [same, beq_self_eq_true] at absent
    cases absent
  obtain ⟨operations, _, done⟩ := except_bind_ok.mp sealed
  obtain ⟨valid, own, result⟩ := sealEvent_valid rfl lease.canonicalTime (fun ref member => absurd member not_mem_nil) done
  have restored : Triple False (fun now => now = disk)
      (rollbackRecovery engine.workspace false lease.nonce lease.tokens plan.record) _ _ :=
    Plan.backward_triple underway.published False.elim
  refine .bind restored (fun now steady => .inl (underway.steady pending steady).1) fun _ now done => ?_
  obtain ⟨rolled, still⟩ := underway.steady pending done.1
  have images : Images plan event.result now := by
    rw [show event.result = .rolledBack from result]
    exact Plan.undone_of_restored done.2
  refine .find (.inl rolled) .check_at fun current _ => .find (.inl rolled) .ensure fun _ _ => ?_
  exact Triple.bind (recordEvent_concludes fresh rolled still valid own images) fun _ => finalizeRollbackAfterAudit_finishes

theorem resolve_leads (reads : decision.Reads lease disk) :
    LeadsTo (Transacting plan start) disk (resolve engine lease strategy decision) := by
  cases decision with
  | finished result => exact .of_keeps .ret (.inl underway)
  | finalize inspection intent event =>
    have own := underway.inspected reads.1
    rw [own] at reads ⊢
    exact Triple.bind (finalizeExistingRecovery_leads fresh underway reads.2) fun _ => refreshed
  | undo intent event =>
    have own := underway.inspected reads.1
    rw [own] at reads ⊢
    obtain ⟨_, read, head, sealed⟩ := reads
    exact Triple.bind (undoIntent_leads fresh underway read sealed) fun _ => refreshed

end

theorem recover_transacts (fresh : ∀ other ∈ start.ledger, other.proposalId ≠ plan.transactionId) :
    Keeps (Transacting plan start) (recover engine lease strategy proposalId selected) := by
  have locked : ∀ disk held, Transacting plan start disk → Transacting plan start { disk with lock := held } := fun _ held =>
    .locked held
  refine recover_leads lease strategy proposalId selected (fun _ => id) locked locked fun disk decision transacting reads => ?_
  rcases transacting with underway | finished
  · exact resolve_leads fresh underway reads
  · have idle : (inspectRecovery engine.workspace disk).intent = none := by simp only [inspectRecovery, finished.absent]
    exact resolve_idle idle (.inr finished) reads

end

/-! Runs. -/

structure ApplyCall (engine : TransactionEngine) where
  lease : Lease engine.workspace.platform
  proposal : TransactionProposal engine.workspace.platform
  approved : Bool
  requested : List String

/-- A call of `recover`, the lock it finds, and what interrupts it. -/
structure RecoverCall (engine : TransactionEngine) where
  lease : Lease engine.workspace.platform
  strategy : RecoveryStrategy
  proposalId : Option String
  transactionId : Option String
  held : Option String
  faults : List (Fault Torn Failure)

def ApplyCall.program (call : ApplyCall engine) : Action ApplyResult :=
  apply engine call.lease call.proposal call.approved call.requested

def RecoverCall.run (call : RecoverCall engine) (disk : Disk) : Disk :=
  ((recover engine call.lease call.strategy call.proposalId call.transactionId).run { disk with lock := call.held }
    call.faults).store

def recoveries (calls : List (RecoverCall engine)) (disk : Disk) : Disk := calls.foldl (fun disk call => call.run disk) disk

/-- The proposal as `apply` compiles it on this disk. -/
def ApplyCall.compiled (call : ApplyCall engine) (disk : Disk) : Except Failure CompiledProposal := do
  let events ← readLedger engine disk
  let analysis ← engine.analyze call.proposal call.requested call.lease.analyzedAt disk.canonical (headHash events)
  (withApproval engine call.proposal call.approved call.requested analysis).accepted

/-- The operations of the compiled proposal on their canonical paths. -/
def ApplyCall.Resolves (call : ApplyCall engine) (start : Disk) (resolved : List ResolvedOperation) : Prop :=
  ∃ compiled, call.compiled start = .ok compiled ∧ compiled.writes.map StagedOperation.lexical = resolved.map some

/-- Nothing of the transaction is durable yet, unless the name of the intent is reserved. -/
structure Unpublished (start disk : Disk) : Prop where
  kept : Kept start disk
  ledger : disk.ledger = start.ledger
  intent : disk.files .intent = none ∨ disk.files .intent = some []

/-- The operations of the plan come from the call, and were possible on the disk it found. -/
structure ApplyCall.Plans (call : ApplyCall engine) (start : Disk) (resolved : List ResolvedOperation)
    (plan : Plan engine.workspace) : Prop where
  resolves : call.Resolves start resolved
  identified : plan.transactionId = call.proposal.id
  operations : plan.operations = resolved.map (ResolvedOperation.planned start)
  present : ∀ operation ∈ resolved, operation.Present start

/-- What the call and its recoveries can leave behind. -/
def ApplyCall.Reached (call : ApplyCall engine) (start disk : Disk) : Prop :=
  Unpublished start disk ∨ ∃ resolved plan, call.Plans start resolved plan ∧ Transacting plan start disk

variable {call : ApplyCall engine}

theorem ApplyCall.Reached.locked (held : Option String) (reached : call.Reached start disk) :
    call.Reached start { disk with lock := held } := by
  rcases reached with unpublished | ⟨resolved, plan, plans, transacting⟩
  · exact .inl ⟨unpublished.kept, unpublished.ledger, unpublished.intent⟩
  · exact .inr ⟨resolved, plan, plans, transacting.locked held⟩

theorem Unpublished.idle (unpublished : Unpublished start disk) : (inspectRecovery engine.workspace disk).intent = none := by
  rcases unpublished.intent with absent | reserved
  · simp only [inspectRecovery, absent]
  · rw [inspectRecovery_reserved reserved]

section
variable (fresh : ∀ event ∈ start.ledger, event.proposalId ≠ call.proposal.id)
include fresh

theorem recover_reaches {lease : Lease engine.workspace.platform} {strategy : RecoveryStrategy} {proposalId selected : Option String} :
    Keeps (call.Reached start) (recover engine lease strategy proposalId selected) := by
  intro disk faults reached
  rcases reached with unpublished | ⟨resolved, plan, plans, transacting⟩
  · have locked : ∀ disk held, Unpublished start disk → Unpublished start { disk with lock := held } := fun _ _ now =>
      ⟨now.kept, now.ledger, now.intent⟩
    have idle : Keeps (Unpublished start) (recover engine lease strategy proposalId selected) :=
      recover_leads lease strategy proposalId selected (fun _ => id) locked locked fun disk decision now reads =>
        resolve_idle now.idle now reads
    exact idle.weaken (fun _ => id) (fun _ _ => .inl) (fun _ => .inl) disk faults unpublished
  · have whole : ∀ now, Transacting plan start now → call.Reached start now := fun now transacting =>
      .inr ⟨resolved, plan, plans, transacting⟩
    exact (recover_transacts (plans.identified ▸ fresh)).weaken (fun _ => id) (fun _ => whole) whole disk faults transacting

theorem recoveries_reach (calls : List (RecoverCall engine)) (reached : call.Reached start disk) :
    call.Reached start (recoveries calls disk) := by
  induction calls generalizing disk with
  | nil => exact reached
  | cons other rest ih =>
    have kept : Keeps (call.Reached start) (recover engine other.lease other.strategy other.proposalId other.transactionId) :=
      recover_reaches fresh
    exact ih (kept.run_leaves (fun _ _ => id) (reached.locked other.held) other.faults)

end

theorem preflight_finds : Finds (fun now => now = disk) (fun flight => call.compiled disk = .ok flight.compiled)
    (preflight engine call.lease call.proposal call.approved call.requested) := by
  refine .bind (.of_keeps .observe) fun inspection _ => .bind .ensure fun _ _ => .bind .check_at fun events read => ?_
  refine .bind .ensure fun _ _ => .bind .ensure fun _ _ => .bind (.of_keeps scratch_keeps) fun _ _ => ?_
  refine .bind .check_at fun analysis analyzed => .bind .check_at fun compiled accepted => ?_
  refine .bind (.of_keeps .check) fun baseline _ => .bind (.of_keeps verifyLock_keeps) fun _ _ => .ret ?_
  exact except_bind_ok.mpr ⟨events, read, except_bind_ok.mpr ⟨analysis, analyzed, accepted⟩⟩

section
variable (clean : start.files .intent = none) (verified : Chained engine start.ledger)
  (unused : ∀ name, start.files (.asset call.lease.directory name) = none)
  (fresh : ∀ event ∈ start.ledger, event.proposalId ≠ call.proposal.id)
  (apart : ∀ resolved, call.Resolves start resolved →
    ∀ operation ∈ resolved, (operation.planned start).HashesApart engine.workspace.platform)
include clean verified unused fresh apart

theorem applyLocked_leads (held : Option String) : LeadsTo (call.Reached start) { start with lock := held }
    (applyLocked engine call.lease call.proposal call.approved call.requested) := by
  have begin : call.Reached start { start with lock := held } := .inl ⟨fun _ => rfl, rfl, .inl clean⟩
  refine .find begin preflight_finds fun flight compiles => ?_
  have plans : ∀ {resolved} (admitted : Admitted engine.workspace { start with lock := held } call.lease.nonce call.proposal.id
      call.lease.nonce flight.compiled.writes resolved), call.Plans start resolved (admitted.plan call.lease.named) := by
    intro resolved admitted
    have resolutions := resolveOperations_ok admitted.resolution
    exact ⟨⟨_, compiles, resolutions.lexical⟩, rfl, rfl, resolutions.present⟩
  have underway : ∀ {plan : Plan engine.workspace} {disk : Disk}, Kept start disk → disk.ledger = start.ledger → plan.Prepared disk →
      Underway plan start disk := by
    intro plan disk kept ledger prepared
    obtain ⟨intent, present, shapes, _⟩ := prepared.published
    exact ⟨⟨intent, present, shapes, fun path _ => kept path⟩, ledger ▸ verified, .inl ledger⟩
  refine .bind (prepare_triple call.lease.named clean unused False.elim) (fun disk left => ?_) fun intent disk done => ?_
  · obtain ⟨kept, _, ledger, intent⟩ := left
    rcases intent with absent | ⟨resolved, admitted, reserved | prepared⟩
    · exact .inl ⟨kept, ledger, .inl absent⟩
    · exact .inl ⟨kept, ledger, .inr reserved⟩
    · exact .inr ⟨resolved, _, plans admitted, .inl (underway kept ledger prepared)⟩
  · obtain ⟨resolved, admitted, record, prepared, left⟩ := done
    have separated : ∀ planned ∈ (admitted.plan call.lease.named).operations, planned.HashesApart engine.workspace.platform := by
      intro planned member
      obtain ⟨operation, inside, same⟩ := mem_map.mp member
      exact same ▸ apart resolved (plans admitted).resolves operation inside
    have whole : ∀ now, Transacting (admitted.plan call.lease.named) start now → call.Reached start now := fun now transacting =>
      .inr ⟨resolved, _, plans admitted, transacting⟩
    have transacted : LeadsTo (Transacting (admitted.plan call.lease.named) start) disk
        (transact engine call.lease call.proposal flight (admitted.plan call.lease.named).record) :=
      transact_leads fresh (underway left.kept left.ledger prepared) left.ledger separated rfl
        (Plan.undone_of_restored prepared.restored)
    rw [record]
    refine Triple.bind (Triple.handle (transacted.weaken (fun _ => id) (fun _ => whole) whole) (fun _ => id)
      fun failure => pendingOr_keeps) fun outcome => Keeps.bind refreshProjection_keeps fun _ => ?_
    cases outcome with
    | committed event diagnostics => exact .ret
    | preimageChanged event => exact .raise
    | postconditionFailed event diagnostics => exact .raise

theorem apply_leads : LeadsTo (call.Reached start) start call.program := by
  have acquired : Keeps (fun now => ∃ held, now = { start with lock := held }) (acquire call.lease.nonce) :=
    acquire_keeps fun now held reached => reached.elim fun _ same => ⟨held, same ▸ rfl⟩
  refine .bind (acquired.strengthen (fun now same => ⟨start.lock, same⟩)) ?_ ?_
  · rintro now ⟨held, rfl⟩
    exact .inl ⟨fun _ => rfl, rfl, .inl clean⟩
  · rintro _ now ⟨held, rfl⟩
    have released : Keeps (call.Reached start) (release call.lease.nonce) := release_keeps fun disk other => .locked other
    exact Triple.cleanup (applyLocked_leads clean verified unused fresh apart held) (fun _ => id) (fun _ => released) released

end

/-! What is left where no intent is. -/

theorem absent_of_clean {workspace : Workspace} (clean : (inspectRecovery workspace disk).state = .clean) :
    disk.files .intent = none := by
  cases intent : disk.files .intent with
  | none => rfl
  | some bytes =>
    simp only [inspectRecovery, intent] at clean
    cases loaded : loadIntent workspace false disk with
    | error failure =>
      rw [loaded] at clean
      cases clean
    | ok pair =>
      rw [loaded] at clean
      exact absurd clean (overallState_ne_clean _)

def Committed (transactionId : String) (disk : Disk) : Prop :=
  ∃ event ∈ disk.ledger, event.proposalId = transactionId ∧ event.result = .committed

/-- Every file that the call addresses is its postimage, and no other file has changed. -/
def ApplyCall.Postimages (call : ApplyCall engine) (start disk : Disk) : Prop :=
  ∃ resolved, call.Resolves start resolved ∧ (∀ operation ∈ resolved, (operation.planned start).Done disk) ∧
    ∀ path ∉ resolved.flatMap ResolvedOperation.paths, disk.canonical path = start.canonical path

theorem undone_agree {planned : Planned} (one : planned.Undone start) (two : planned.Undone disk) :
    ∀ path ∈ planned.paths, disk.canonical path = start.canonical path := by
  intro path member
  cases planned with
  | replace target preimage postimage =>
    rw [mem_singleton.mp member]
    exact two.trans one.symm
  | move source destination content =>
    rcases mem_cons.mp member with leaves | arrives
    · rw [leaves]
      exact two.1.trans one.1.symm
    · rw [mem_singleton.mp arrives]
      exact two.2.trans one.2.symm
  | delete target preimage =>
    rw [mem_singleton.mp member]
    exact two.trans one.symm

theorem ApplyCall.Reached.settled (reached : call.Reached start disk)
    (fresh : ∀ event ∈ start.ledger, event.proposalId ≠ call.proposal.id) (absent : disk.files .intent = none) :
    (Committed call.proposal.id disk → call.Postimages start disk) ∧ (¬Committed call.proposal.id disk → Kept start disk) := by
  rcases reached with unpublished | ⟨resolved, plan, plans, transacting⟩
  · refine ⟨fun committed => ?_, fun _ => unpublished.kept⟩
    obtain ⟨event, member, own, _⟩ := committed
    rw [unpublished.ledger] at member
    exact absurd own (fresh event member)
  rcases transacting with underway | finished
  · exact absurd (absent.symm.trans underway.published.intent) (by simp)
  obtain ⟨result, ⟨event, own, outcome, ledger⟩, images⟩ := finished.concluded
  have paths : plan.paths = resolved.flatMap ResolvedOperation.paths := by
    rw [Plan.paths, plans.operations, flatMap_map]
    exact congrArg (List.flatMap · resolved) (funext fun operation => operation.planned_paths)
  have planned : ∀ operation ∈ resolved, operation.planned start ∈ plan.operations := fun operation inside =>
    plans.operations ▸ mem_map_of_mem inside
  cases result with
  | committed =>
    refine ⟨fun _ => ⟨resolved, plans.resolves, fun operation inside => images _ (planned operation inside), ?_⟩, fun missing => ?_⟩
    · rw [← paths]
      exact finished.elsewhere
    · refine absurd ⟨event, ?_, own.trans plans.identified, outcome⟩ missing
      rw [ledger]
      exact mem_append_right _ mem_cons_self
  | rolledBack =>
    refine ⟨fun committed => ?_, fun _ path => ?_⟩
    · obtain ⟨other, member, same, kind⟩ := committed
      rw [ledger] at member
      rcases mem_append.mp member with earlier | last
      · exact absurd same (fresh other earlier)
      · rw [mem_singleton.mp last, outcome] at kind
        cases kind
    · by_cases inside : path ∈ plan.paths
      · rw [paths] at inside
        obtain ⟨operation, member, addressed⟩ := mem_flatMap.mp inside
        rw [← operation.planned_paths] at addressed
        exact undone_agree (ResolvedOperation.planned_undone (plans.present operation member))
          (images _ (planned operation member)) path addressed
      · exact finished.elsewhere path inside

/-- All or nothing: a transaction and any number of recoveries behind it may each be stopped or fail at any step. Wherever the
staging area is clean, the canonical files are all postimages if the ledger holds the committed event, and all preimages otherwise. -/
theorem apply_all_or_nothing (clean : (inspectRecovery engine.workspace start).state = .clean)
    (verified : Chained engine start.ledger) (unused : ∀ name, start.files (.asset call.lease.directory name) = none)
    (fresh : ∀ event ∈ start.ledger, event.proposalId ≠ call.proposal.id)
    (apart : ∀ resolved, call.Resolves start resolved →
      ∀ operation ∈ resolved, (operation.planned start).HashesApart engine.workspace.platform)
    (faults : List (Fault Torn Failure)) (calls : List (RecoverCall engine)) :
    let disk := recoveries calls (call.program.run start faults).store
    (inspectRecovery engine.workspace disk).state = .clean →
      (Committed call.proposal.id disk → call.Postimages start disk) ∧ (¬Committed call.proposal.id disk → Kept start disk) := by
  intro disk settled
  have applied : call.Reached start (call.program.run start faults).store :=
    (apply_leads (absent_of_clean clean) verified unused fresh apart).run_leaves (fun _ _ => id) rfl faults
  exact (recoveries_reach fresh calls applied).settled fresh (absent_of_clean settled)

end

def noteCompiled : CompiledProposal := ⟨[.write "02_knowledge/a.md" [97]], [], [.create "02_knowledge/a.md" (samplePlatform.contentHash [97])], [], []⟩

def noteEngine : TransactionEngine :=
  { sampleEngine with
    analyze := fun _ _ _ _ _ => .ok ⟨[], some noteCompiled⟩
    compiles := by
      intro proposal requested time contents head analysis compiled ok some_
      cases ok
      cases some_
      decide }

def noteLease : Lease noteEngine.workspace.platform where
  nonce := sampleNonce
  directory := noteDirectory
  tokens _ := ""
  analyzedAt := "2025-01-01T00:00:00Z"
  sealedAt := "2025-01-01T00:00:00Z"
  nonceValid := by decide
  named := by decide
  canonicalTime := rfl

theorem noteContext : isContextId "demo" = true := by decide

theorem noteActor : Actor.ofValue (Actor.human "ana").data = some (.human "ana") := by decide

def noteCall : ApplyCall noteEngine where
  lease := noteLease
  proposal :=
    { id := "TXP-20250101T000000Z-note"
      contextId := "demo"
      baseRevision := headHash []
      actor := .human "ana"
      sourceRefs := []
      operations := [.create "02_knowledge/a.md" ⟨.entity, .null, ""⟩]
      preconditions := []
      postconditions := []
      approvalRequired := false
      idValid := by decide
      contextValid := noteContext
      actorValid := noteActor
      references := by simp
      distinctReferences := by simp
      localReferences := rfl
      nonempty := by simp
      addressed := by decide
      distinctPaths := by simp [TransactionOperation.paths] }
  approved := true
  requested := []

def emptyDisk : Disk := ⟨fun _ => none, fun _ => false, none, []⟩

def noteRecovery : RecoverCall noteEngine := ⟨noteLease, .rollback, none, none, none, []⟩

/-- `apply` is stopped after its sixth step. -/
def stops : List (Fault Torn Failure) := [.run, .run, .run, .run, .run, .crash .landed]

def stoppedDisk : Disk := recoveries [noteRecovery] (noteCall.program.run emptyDisk stops).store

theorem apply_all_or_nothing_note :
    (Committed noteCall.proposal.id stoppedDisk → noteCall.Postimages emptyDisk stoppedDisk) ∧
      (¬Committed noteCall.proposal.id stoppedDisk → Kept emptyDisk stoppedDisk) := by
  have chained : Chained noteEngine emptyDisk.ledger :=
    ⟨fun _ member => absurd member List.not_mem_nil, fun _ member => absurd member List.not_mem_nil, List.nodup_nil, List.nodup_nil, trivial⟩
  refine @apply_all_or_nothing noteEngine emptyDisk noteCall rfl chained (fun _ => rfl)
    (fun _ member => absurd member List.not_mem_nil) (fun resolved _ operation _ => ?_) stops [noteRecovery] rfl
  cases operation with
  | replace target content => exact fun old present => nomatch present
  | move source destination => exact trivial
  | delete target => exact trivial

end Workctx.Engine
