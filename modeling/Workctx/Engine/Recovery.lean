import Workctx.Engine.Appends
import Workctx.Engine.Collisions
import Workctx.Engine.Protocol
import Workctx.Staging.Prepare
import Workctx.Staging.Touches

/-! Recovery from any intent file: what is loaded has the form of a prepared intent, and what is rolled back spares the ledger. -/

namespace Workctx.Engine
open Workctx.Durable Workctx.Text Workctx.Domain Workctx.Staging Workctx.Ledger List

/-- Only canonical files of the writable zones have changed, no two of them with one key, and none with the key of the ledger. -/
def Spared (platform : Platform) (start disk : Disk) : Prop :=
  ∃ paths, Outside start paths disk ∧ (∀ path ∈ paths, canonicalTarget path = some path) ∧ Apart platform (ledgerPath :: paths)

section
variable {engine : TransactionEngine} {start : Disk} {paths : List String} {nonce : String}

variable {platform : Platform} {inv : Disk → Prop} {directory : String}

theorem spared_of_outside {disk : Disk} (outside : Outside start [] disk) : Spared platform start disk :=
  ⟨[], outside, forall_mem_nil _, pairwise_singleton _ _⟩

theorem keeps_spared {α : Type} {program : Action α} (keeps : ∀ paths, Keeps (Outside start paths) program) :
    Keeps (Spared platform start) program := by
  intro disk faults spared
  obtain ⟨paths, outside, canonical, apart⟩ := spared
  exact (keeps paths).weaken (fun _ => id) (fun _ _ now => ⟨paths, now, canonical, apart⟩) (fun _ now => ⟨paths, now, canonical, apart⟩)
    disk faults outside

theorem scratch_keeps : Keeps inv (.perform scratchStep : Action Unit) :=
  .perform (fun _ => id) fun _ _ => id

theorem refreshProjection_keeps : Keeps inv refreshProjection := .handle scratch_keeps fun _ => .ret

theorem pendingOr_keeps {α : Type} {failure : Failure} : Keeps inv (pendingOr engine failure : Action α) := by
  refine .bind .observe fun pending => ?_
  split
  · exact .raise
  · exact .raise

theorem settle_keeps {α : Type} {started : Bool} {failure : Failure} :
    Keeps inv (settle engine started failure : Action α) := by
  unfold settle
  split
  · exact .raise
  · exact .raise
  · split
    · exact pendingOr_keeps
    · exact .raise
  · exact pendingOr_keeps

theorem acquire_keeps (locked : ∀ disk held, inv disk → inv { disk with lock := held }) : Keeps inv (acquire nonce) := by
  refine .bind (.perform (fun disk holds => ?_) fun _ _ holds => holds) fun _ => .check
  unfold acquireStep
  show inv (if disk.lock.isNone then { disk with lock := some nonce } else disk)
  split
  · exact locked disk _ holds
  · exact holds

theorem release_keeps (locked : ∀ disk held, inv disk → inv { disk with lock := held }) : Keeps inv (release nonce) := by
  refine .handle (.bind verifyLock_keeps fun _ => .perform (fun disk holds => ?_) fun _ _ holds => holds) fun failure => ?_
  · show inv (if disk.lock = some nonce then { disk with lock := none } else disk)
    split
    · exact locked disk _ holds
    · exact holds
  · split
    · exact .ret
    · exact .raise

/-! The ledger. -/

theorem atomicAppendLineBytes_keeps {event : AuditEvent} : Keeps (Outside start paths) (atomicAppendLineBytes engine nonce event) := by
  have appended : ∀ before, Keeps (Outside start paths) (.perform (appendStep before event) : Action Unit) :=
    fun before => .perform (fun _ outside => outside) fun _ _ outside => outside
  have directories : Keeps (Outside start paths) ensureRuntimeDirectories := .bind scratch_keeps fun _ => .bind scratch_keeps fun _ => scratch_keeps
  have attempt : ∀ before, Keeps (Outside start paths) (verifyAppendAttempt engine nonce before) :=
    fun before => .bind .check fun _ => .bind .check fun _ => .bind .check fun _ => verifyLock_keeps
  exact .bind .ensure fun _ => .bind .check fun _ => .bind verifyLock_keeps fun _ => .bind .check fun _ => .bind directories fun _ =>
    .bind scratch_keeps fun _ => .bind .check fun _ => .bind .ensure fun _ => .bind .observe fun before =>
      .cleanup (.bind verifyLock_keeps fun _ => .bind scratch_keeps fun _ => .retry (attempt before) (appended before)) scratch_keeps

theorem confirmAppend_keeps {event : AuditEvent} {unconfirmed : Failure} :
    Keeps inv (confirmAppend engine event unconfirmed) := by
  refine .bind .check fun committed => ?_
  cases committed with
  | some committed => exact .ret
  | none => exact .raise

theorem recordEvent_keeps {event : AuditEvent} : Keeps (Outside start paths) (recordEvent engine nonce event) := by
  refine .bind (.bind verifyLock_keeps fun _ => .bind .check fun replay => ?_) fun _ => .ensure
  cases replay with
  | some replay => exact .ret
  | none => exact .attempt atomicAppendLineBytes_keeps (fun _ => confirmAppend_keeps) fun _ => confirmAppend_keeps

/-! The decision. -/

theorem sealEvent_operations {content event : AuditEvent} (done : sealEvent platform content = .ok event) :
    ∀ operation ∈ content.operations, operation.valid platform = true := by
  unfold sealEvent at done
  split at done
  · next valid =>
    simp only [AuditEvent.contentValid, Bool.and_eq_true] at valid
    exact all_eq_true.mp valid.1.1.1.1.1.1.2
  · cases done

theorem key_apart {path : String} (valid : validateContextPath platform path = true) :
    platform.pathKey path ≠ platform.pathKey ledgerPath := (contextPath_of_valid valid).2.2

theorem auditOperationOf_apart {index : Nat} {operation : ValidatedOperation} {audit : AuditOperation}
    (read : auditOperationOf (writtenTarget directory index operation) = .ok audit) (valid : audit.valid platform = true) :
    ∀ path ∈ operation.paths, platform.pathKey path ≠ platform.pathKey ledgerPath := by
  intro path member
  cases operation with
  | replace target contentHash preimageHash =>
    rw [mem_singleton.mp member]
    cases preimageHash with
    | none =>
      cases read
      exact key_apart (Bool.and_eq_true_iff.mp valid).1
    | some preimageHash =>
      cases read
      exact key_apart (Bool.and_eq_true_iff.mp (Bool.and_eq_true_iff.mp valid).1).1
  | move source destination contentHash =>
    cases read
    obtain ⟨leaves, arrives⟩ := Bool.and_eq_true_iff.mp (Bool.and_eq_true_iff.mp valid).1
    rcases mem_cons.mp member with rfl | later
    · exact key_apart leaves
    · rw [mem_singleton.mp later]
      exact key_apart arrives
  | delete target preimageHash =>
    rw [mem_singleton.mp member]
    cases read
    exact key_apart (Bool.and_eq_true_iff.mp (Bool.and_eq_true_iff.mp valid).1).1

theorem auditOperations_apart {index : Nat} {operations : List ValidatedOperation}
    {audits : List AuditOperation} (read : (writtenTargets directory index operations).mapM auditOperationOf = .ok audits)
    (valid : ∀ audit ∈ audits, audit.valid platform = true) :
    ∀ path ∈ operations.flatMap ValidatedOperation.paths, platform.pathKey path ≠ platform.pathKey ledgerPath := by
  induction operations generalizing index audits with
  | nil => exact forall_mem_nil _
  | cons operation rest ih =>
    rw [writtenTargets, mapM_cons] at read
    obtain ⟨audit, one, read⟩ := except_bind_ok.mp read
    obtain ⟨others, more, same⟩ := except_bind_ok.mp read
    cases same
    intro path member
    rw [flatMap_cons, mem_append] at member
    rcases member with own | later
    · exact auditOperationOf_apart one (valid audit mem_cons_self) path own
    · exact ih more (fun audit member => valid audit (mem_cons_of_mem _ member)) path later

theorem intentEvent_apart {contextId time prevHash : String} {record : IntentRecord} {event : AuditEvent}
    {operations : List ValidatedOperation} (sealed : intentEvent platform contextId time record prevHash = .ok event)
    (form : IntentForm platform record directory operations) : Apart platform (ledgerPath :: record.paths) := by
  obtain ⟨audits, read, done⟩ := except_bind_ok.mp sealed
  have valid := sealEvent_operations done
  unfold intentAuditOperations at read
  rw [form.targets] at read
  have others := auditOperations_apart read valid
  rw [form.paths]
  exact pairwise_cons.mpr ⟨fun path member => (others path member).symm, form.apart⟩

section
variable (lease : Lease engine.workspace.platform) (strategy : RecoveryStrategy) (proposalId transactionId : Option String)

/-- What `recover` has read from the disk when it decides. -/
def Decision.Reads (disk : Disk) : Decision → Prop
  | .finished _ => True
  | .finalize _ intent event => (inspectRecovery engine.workspace disk).intent = some intent ∧
    findEventByProposalId engine intent.transactionId disk = .ok (some event)
  | .undo intent event => (inspectRecovery engine.workspace disk).intent = some intent ∧
    findEventByProposalId engine intent.transactionId disk = .ok none ∧
    ∃ head, intentEvent engine.workspace.platform engine.contextId lease.sealedAt intent head = .ok event

variable {inv : Disk → Prop} {disk : Disk} {decision : Decision}

theorem decideIntent_reads {head : String} {inspection : RecoveryInspection} {intent : IntentRecord}
    (inspected : (inspectRecovery engine.workspace disk).intent = some intent) :
    Finds (fun now => now = disk) (Decision.Reads lease disk)
      (decideIntent engine lease proposalId transactionId head inspection intent) := by
  refine .bind (.of_keeps .check) fun _ _ => .bind .ensure fun _ _ => .bind .check_at fun existing found => ?_
  cases existing with
  | some event => exact .ret ⟨inspected, found⟩
  | none => exact .bind .check_at fun event sealed => .ret ⟨inspected, found, head, sealed⟩

theorem alreadyFinalized_keeps {transactionId : Option String} :
    Keeps inv (alreadyFinalized engine strategy transactionId) := by
  unfold alreadyFinalized
  split
  · exact .raise
  · refine .bind .check fun event => ?_
    cases event with
    | none => exact .raise
    | some event => exact .bind refreshProjection_keeps fun _ => .ret

theorem decideRecovery_reads : Finds (fun now => now = disk) (Decision.Reads lease disk)
    (decideRecovery engine lease strategy proposalId transactionId) := by
  refine .bind (.of_keeps .check) fun events _ => .bind .observe_at fun inspection seen => ?_
  split
  · exact .bind (.of_keeps .check) fun _ _ => .bind (.of_keeps (alreadyFinalized_keeps strategy)) fun _ _ => .ret trivial
  · split
    · exact .raise
    · split
      · exact .raise
      · next intent inspected =>
        rw [seen] at inspected
        exact decideIntent_reads lease proposalId transactionId inspected

/-- It is enough to look at each decision where it is taken. -/
theorem recover_leads {before : Disk → Prop} (begin : ∀ disk, before disk → inv disk)
    (starts : ∀ disk held, before disk → before { disk with lock := held })
    (locked : ∀ disk held, inv disk → inv { disk with lock := held })
    (each : ∀ disk decision, before disk → decision.Reads lease disk → LeadsTo inv disk (resolve engine lease strategy decision)) :
    Triple False before (recover engine lease strategy proposalId transactionId) (fun _ => inv) inv := by
  have resolved : ∀ disk, before disk → LeadsTo inv disk (recoverLocked engine lease strategy proposalId transactionId) := by
    intro disk holds
    have opened : ∀ now, now = disk → inv now := fun now same => same ▸ begin disk holds
    refine Triple.attempt (decideRecovery_reads lease strategy proposalId transactionId) opened (fun decision => ?_) fun failure => ?_
    · intro now faults seen
      exact Triple.handle (each disk decision holds seen.2) (fun _ => id) (fun failure => settle_keeps) now faults seen.1
    · exact LeadsTo.of_keeps settle_keeps (begin disk holds)
  refine Triple.bind ((acquire_keeps starts).stopping begin) fun _ => ?_
  exact Triple.cleanup (Triple.of_each resolved) (fun _ => id) (fun _ => release_keeps locked) (release_keeps locked)

theorem rollbackRecovery_spared {intent : IntentRecord} {event : AuditEvent} {contextId time prevHash : String} {tokens : Nat → String}
    (sealed : intentEvent engine.workspace.platform contextId time intent prevHash = .ok event) :
    Triple False (Outside start []) (rollbackRecovery engine.workspace false nonce tokens intent)
      (fun _ => Spared engine.workspace.platform start) (Spared engine.workspace.platform start) := by
  have stopped : ∀ disk, Outside start [] disk → Spared engine.workspace.platform start disk := fun _ => spared_of_outside
  refine Triple.bind (activateResolutionCache_keeps.stopping stopped) fun _ => ?_
  refine Triple.bind (loadRequested_finds.stopping stopped) fun validated => ?_
  intro disk faults now
  obtain ⟨outside, form⟩ := now
  have within : ∀ path ∈ validated.operations.flatMap ValidatedOperation.paths, path ∈ intent.paths := fun path member => form.paths ▸ member
  have canonical : ∀ path ∈ intent.paths, canonicalTarget path = some path := fun path member => form.canonical path (form.paths ▸ member)
  have apart := intentEvent_apart sealed form
  refine (rollbackValidated_keeps within).weaken (fun _ => id) (fun _ _ now => ⟨_, now, canonical, apart⟩)
    (fun _ now => ⟨_, now, canonical, apart⟩) disk faults ?_
  exact fun path _ => outside path not_mem_nil

theorem resolve_spared (reads : decision.Reads lease disk) :
    Triple False (Outside start []) (resolve engine lease strategy decision) (fun _ => Spared engine.workspace.platform start)
      (Spared engine.workspace.platform start) := by
  have stopped : ∀ disk, Outside start [] disk → Spared engine.workspace.platform start disk := fun _ => spared_of_outside
  cases decision with
  | finished result => exact Triple.ret fun disk => stopped disk
  | finalize inspection intent event =>
    have finalized : ∀ paths, Keeps (Outside start paths) (finalizeExistingRecovery engine lease.nonce inspection intent event) := by
      intro paths
      refine .bind .check fun operations => .bind .ensure fun _ => ?_
      split
      · exact .bind .ensure fun _ => finalizeApplied_keeps
      · exact .bind .ensure fun _ => finalizeRollbackAfterAudit_keeps
    have whole : Keeps (Spared engine.workspace.platform start) (resolve engine lease strategy (.finalize inspection intent event)) :=
      .bind (keeps_spared finalized) fun _ => .bind refreshProjection_keeps fun _ => .ret
    exact whole.strengthen stopped
  | undo intent event =>
    obtain ⟨_, _, prevHash, sealed⟩ := reads
    have behind : Keeps (Spared engine.workspace.platform start) (do
        let current ← .check (readLedger engine)
        .ensure (headHash current == event.prevHash) .recoveryPending
        recordEvent engine lease.nonce event
        finalizeRollbackAfterAudit engine.workspace true lease.nonce intent.transactionId : Action Unit) :=
      .bind .check fun _ => .bind .ensure fun _ => .bind (keeps_spared fun _ => recordEvent_keeps) fun _ =>
        keeps_spared fun _ => finalizeRollbackAfterAudit_keeps
    have whole : Triple False (Outside start []) (undoIntent engine lease intent event) (fun _ => Spared engine.workspace.platform start)
        (Spared engine.workspace.platform start) := Triple.bind (rollbackRecovery_spared sealed) fun _ => behind
    have refreshed : Keeps (Spared engine.workspace.platform start) (do
        refreshProjection
        .ret (rolledBackReceipt strategy intent event) : Action RecoveryResult) := .bind refreshProjection_keeps fun _ => .ret
    exact Triple.bind whole fun _ => refreshed

/-- Whatever the intent file holds, a recovery that is stopped anywhere has changed only files of the writable zones that are apart from
each other and from the ledger. -/
theorem recover_spared : Triple False (fun disk => disk = start) (recover engine lease strategy proposalId transactionId)
    (fun _ => Spared engine.workspace.platform start) (Spared engine.workspace.platform start) := by
  have spared : Triple False (Outside start []) (recover engine lease strategy proposalId transactionId)
      (fun _ => Spared engine.workspace.platform start) (Spared engine.workspace.platform start) := by
    refine recover_leads lease strategy proposalId transactionId (fun _ => spared_of_outside) (fun _ _ outside => outside)
      (fun _ _ spared => spared) fun disk decision outside reads => ?_
    exact (resolve_spared lease strategy reads).strengthen (fun now same => same ▸ outside)
  exact spared.strengthen (fun disk same path _ => same ▸ rfl)

end

/-- Intent records: what `prepare` returns is durable and read back, as is every record of the form; nothing else is loaded, whatever the
file holds; and a recovery that is stopped anywhere spares what is outside, the ledger, and all but one of the paths with one key. -/
theorem intent_codec (engine : TransactionEngine) :
    (∀ {lock transactionId nonce directory : String} {operations : List StagedOperation} {start : Disk},
      isTransactionDirectory directory = true → start.files .intent = none → (∀ name, start.files (.asset directory name) = none) →
      Triple False (fun disk => disk = start) (prepare engine.workspace lock transactionId nonce directory operations)
        (fun record disk => disk.files .intent = some (encodeIntent record) ∧ decodeIntent (encodeIntent record) = some record ∧
          ∃ found, IntentForm engine.workspace.platform record directory found) fun _ => True) ∧
      (∀ record directory found, IntentForm engine.workspace.platform record directory found → decodeIntent (encodeIntent record) = some record) ∧
      (∀ cached disk record validated, loadIntent engine.workspace cached disk = .ok (record, validated) →
        IntentForm engine.workspace.platform record validated.directory validated.operations) ∧
      (∀ cached disk value record validated, IntentRecord.fromDict value = some record →
        validatedIntentPaths engine.workspace cached disk record = .ok validated →
        IntentForm engine.workspace.platform record validated.directory validated.operations) ∧
      ∀ (lease : Lease engine.workspace.platform) strategy proposalId transactionId start,
        Triple False (fun disk => disk = start) (recover engine lease strategy proposalId transactionId)
          (fun _ => Spared engine.workspace.platform start) (Spared engine.workspace.platform start) := by
  refine ⟨?_, fun _ _ _ form => form.decoded, fun _ _ _ _ => form_of_loaded,
    fun _ _ _ _ _ read => form_of_validated (fieldsValid_of_fromDict read), fun lease strategy proposalId transactionId start =>
      recover_spared lease strategy proposalId transactionId⟩
  intro lock transactionId nonce directory operations start named absent fresh
  refine (prepare_triple named absent fresh False.elim).weaken (fun _ => id) ?_ fun _ _ => trivial
  rintro record disk ⟨resolved, admitted, rfl, prepared, _⟩
  have form := (admitted.plan named).form
  exact ⟨prepared.intent, form.decoded, _, form⟩

def noteDirectory : String := "txn-0123456789abcdef01234567"

def noteHash : String := "sha256:" ++ String.ofList (List.replicate 64 '0')

def noteOperations : List ValidatedOperation := [.replace "02_knowledge/a.md" noteHash none]

def noteRecord : IntentRecord := ⟨"TXP-20260101-001", sampleNonce, writtenTargets noteDirectory 0 noteOperations⟩

theorem noteRecord_form : IntentForm sampleEngine.workspace.platform noteRecord noteDirectory noteOperations := by
  have hash : isContentHash noteHash = true := by decide +kernel
  refine ⟨by decide, by decide, cons_ne_nil _ _, by decide, rfl, ?_, ?_, pairwise_singleton _ _⟩
  · intro operation member other own
    rw [mem_singleton.mp member] at own
    rw [mem_singleton.mp own]
    exact hash
  · decide

theorem intent_codec_sample :
    Triple False (fun disk => disk = heldDisk)
        (prepare sampleEngine.workspace sampleNonce "TXP-20260101-001" sampleNonce noteDirectory [.write "02_knowledge/a.md" []])
        (fun record disk => disk.files .intent = some (encodeIntent record) ∧ decodeIntent (encodeIntent record) = some record ∧
          ∃ found, IntentForm sampleEngine.workspace.platform record noteDirectory found) (fun _ => True) ∧
      decodeIntent (encodeIntent noteRecord) = some noteRecord := by
  have named : isTransactionDirectory noteDirectory = true := by decide
  obtain ⟨written, readBack, _⟩ := intent_codec sampleEngine
  constructor
  · exact @written sampleNonce "TXP-20260101-001" sampleNonce noteDirectory [.write "02_knowledge/a.md" []] heldDisk named rfl fun _ => rfl
  · exact readBack noteRecord noteDirectory noteOperations noteRecord_form

end
end Workctx.Engine
