import Workctx.Engine.Append

/-! What any append comes to, and runs of appends that may be stopped or fail at any step. -/

namespace Workctx.Engine
open Workctx.Durable Workctx.Text Workctx.Domain Workctx.Staging Workctx.Ledger List

section
variable {engine : TransactionEngine} {start disk : Disk} {nonce : String} {event : AuditEvent}

/-- An append whose event is a replay, or is refused, writes nothing. -/
theorem placeEvent_ok (chain : Chained engine disk.ledger) {found : Option AuditEvent}
    (placed : placeEvent engine event disk = .ok found) :
    (found = some event ∧ event ∈ disk.ledger) ∨
      (found = none ∧ (∀ other ∈ disk.ledger, other.proposalId ≠ event.proposalId) ∧
        event.contextId = engine.contextId ∧ event.prevHash = headHash disk.ledger) := by
  obtain ⟨events, read, placed⟩ := except_bind_ok.mp placed
  rw [(readLedger_ok chain read).1] at placed
  obtain ⟨replay, matched, placed⟩ := except_bind_ok.mp placed
  obtain ⟨byId, idFound, matched⟩ := except_bind_ok.mp matched
  obtain ⟨byProposal, proposalFound, matched⟩ := except_bind_ok.mp matched
  by_cases unknown : (byId.isNone && byProposal.isNone) = true
  · rw [if_pos unknown] at matched
    cases matched
    obtain ⟨context, placed⟩ := demand_bind_ok.mp placed
    obtain ⟨linked, placed⟩ := demand_bind_ok.mp placed
    obtain ⟨_, placed⟩ := demand_bind_ok.mp placed
    cases placed
    right
    rw [Bool.and_eq_true, Option.isNone_iff_eq_none, Option.isNone_iff_eq_none] at unknown
    rw [unknown.2] at proposalFound
    refine ⟨rfl, fun other member same => ?_, beq_iff_eq.mp context, beq_iff_eq.mp linked⟩
    have absent := findUnique_none proposalFound other member
    rw [same, beq_self_eq_true] at absent
    cases absent
  · rw [if_neg unknown] at matched
    obtain ⟨exact_, matched⟩ := demand_bind_ok.mp matched
    cases matched
    rw [Bool.and_eq_true, beq_iff_eq, beq_iff_eq] at exact_
    rw [exact_.2] at placed idFound
    cases placed
    exact .inl ⟨rfl, (findUnique_ok idFound).1⟩

/-- An event as the model validates it: well formed and sealed with its own hash. -/
abbrev SealedEvent (platform : Platform) := { event : AuditEvent // event.Valid platform }

/-- The file is the former bytes and one canonical line, which links to the former head. -/
structure Extends (engine : TransactionEngine) (before : List AuditEvent) (event : AuditEvent) (after : List AuditEvent) :
    Prop where
  fresh : ∀ other ∈ before, other.proposalId ≠ event.proposalId
  linked : event.prevHash = headHash before
  bytes : ∃ line, encodeEventLine event = some line ∧ ledgerFile after = some ((ledgerFile before).getD [] ++ line)
  verifies : readVerifiedEvents engine.workspace.platform engine.contextId (ledgerFile after) = some (before ++ [event])

/-- The file has its former bytes, and verifies. -/
structure Unchanged (engine : TransactionEngine) (before after : List AuditEvent) : Prop where
  bytes : ledgerFile after = ledgerFile before
  verifies : readVerifiedEvents engine.workspace.platform engine.contextId (ledgerFile after) = some before

def AppendOutcome (engine : TransactionEngine) (before : List AuditEvent) (event : AuditEvent) :
    Outcome Disk Torn Failure AuditEvent → Prop
  | .ok committed disk _ =>
    committed = event ∧ (Extends engine before event disk.ledger ∨ event ∈ before ∧ Unchanged engine before disk.ledger)
  | .error _ disk _ => Extends engine before event disk.ledger ∨ Unchanged engine before disk.ledger
  | .crash disk => Extends engine before event disk.ledger ∨ Unchanged engine before disk.ledger

theorem unchanged_of (chain : Chained engine start.ledger) (same : disk = start) :
    Unchanged engine start.ledger disk.ledger := by
  rw [same]
  exact ⟨rfl, readVerifiedEvents_ledgerFile chain⟩

theorem ledgerFile_getD (events : List AuditEvent) : (ledgerFile events).getD [] = encodeLedger events := by
  unfold ledgerFile
  split
  · next empty =>
    rw [empty]
    rfl
  · rfl

theorem extends_of (appended : disk = withEvent start event) (chain : Chained engine disk.ledger) :
    Extends engine start.ledger event disk.ledger := by
  rw [appended] at chain ⊢
  have filled : (withEvent start event).ledger ≠ [] := append_ne_nil_of_right_ne_nil _ (cons_ne_nil _ _)
  constructor
  · intro other member same
    have proposals := chain.proposalIds
    rw [withEvent, map_append, map_singleton] at proposals
    apply (nodup_concat.mp proposals).2
    rw [← same]
    exact mem_map_of_mem member
  · exact ((Chain.linked_concat _ _ _ _ _).mp chain.linked).2
  · refine ⟨event.canonicalLineBytes, encodeEventLine_eq event, ?_⟩
    rw [ledgerFile_getD, ledgerFile, if_neg filled, withEvent, encodeLedger, encodeLedger, flatMap_append,
      flatMap_singleton]
  · exact readVerifiedEvents_ledgerFile chain

section
variable (chain : Chained engine start.ledger)
include chain

theorem appendEvent_known
    (known : ∃ other ∈ start.ledger, other.proposalId = event.proposalId) :
    Triple False (fun disk => disk = start) (appendEvent engine nonce event)
      (fun committed disk => committed = event ∧ event ∈ start.ledger ∧ disk = start) (fun disk => disk = start) := by
  unfold appendEvent
  refine Triple.bind (verifyLock_triple (fun _ => id) False.elim) fun _ => ?_
  refine Triple.bind (Triple.check_keep (fun _ => id) False.elim) fun replay => Triple.of_each fun disk seen => ?_
  obtain ⟨same, placed⟩ := seen
  rw [same] at placed ⊢
  rcases placeEvent_ok chain placed with ⟨found, member⟩ | ⟨_, fresh, _⟩
  · rw [found]
    exact Triple.ret fun disk same => ⟨rfl, member, same⟩
  · obtain ⟨other, member, same⟩ := known
    exact absurd same (fresh other member)

section
variable (valid : event.Valid engine.workspace.platform)
include valid

theorem appendEvent_any : Triple False (fun disk => disk = start) (appendEvent engine nonce event)
    (fun committed disk => committed = event ∧
      (event ∈ start.ledger ∧ disk = start ∨ disk = withEvent start event ∧ Chained engine disk.ledger))
    (fun disk => Appending start event disk ∧ Chained engine disk.ledger) := by
  by_cases known : ∃ other ∈ start.ledger, other.proposalId = event.proposalId
  · exact (appendEvent_known chain known).weaken (fun _ => id) (fun _ _ done => ⟨done.1, .inl done.2⟩)
      fun _ same => ⟨.inl same, same ▸ chain⟩
  · have fresh : ∀ other ∈ start.ledger, other.proposalId ≠ event.proposalId := fun other member same =>
      known ⟨other, member, same⟩
    exact (appendEvent_triple chain valid fresh False.elim).ensuring (fun _ _ done => ⟨done.1, .inr done.2⟩)

theorem appendEvent_outcome (faults : List (Fault Torn Failure)) :
    AppendOutcome engine start.ledger event ((appendEvent engine nonce event).run start faults) := by
  have stopped : ∀ disk, Appending start event disk ∧ Chained engine disk.ledger →
      Extends engine start.ledger event disk.ledger ∨ Unchanged engine start.ledger disk.ledger := by
    rintro disk ⟨same | appended, verified⟩
    · exact .inr (unchanged_of chain same)
    · exact .inl (extends_of appended verified)
  have accepted := @appendEvent_any engine start nonce event chain valid start faults rfl
  cases ran : (appendEvent engine nonce event).run start faults with
  | ok committed disk rest =>
    rw [ran] at accepted
    exact ⟨accepted.1, accepted.2.symm.imp (fun appended => extends_of appended.1 appended.2) fun known =>
      ⟨known.1, unchanged_of chain known.2⟩⟩
  | error error disk rest =>
    rw [ran] at accepted
    exact stopped disk accepted.1
  | crash disk =>
    rw [ran] at accepted
    exact stopped disk accepted

theorem appendEvent_leaves (faults : List (Fault Torn Failure)) :
    let left := ((appendEvent engine nonce event).run start faults).store
    Chained engine left.ledger ∧ start.ledger <+: left.ledger := by
  intro left
  have finished : ∀ committed disk, committed = event ∧ (event ∈ start.ledger ∧ disk = start ∨
      disk = withEvent start event ∧ Chained engine disk.ledger) → Appending start event disk ∧ Chained engine disk.ledger := by
    rintro committed disk ⟨_, ⟨_, same⟩ | ⟨appended, verified⟩⟩
    · exact ⟨.inl same, same ▸ chain⟩
    · exact ⟨.inr appended, verified⟩
  obtain ⟨reached, verified⟩ := Triple.run_leaves (appendEvent_any chain valid) finished rfl faults
  refine ⟨verified, ?_⟩
  rcases reached with same | appended
  · rw [show left = start from same]
  · rw [show left = withEvent start event from appended]
    exact prefix_append _ _

end
end

/-- A run of appends. Each starts from the ledger the one before it left, may be stopped or fail at
any of its steps, and between them everything but the ledger may change. -/
inductive Appends (engine : TransactionEngine) (start : Disk) : Disk → Prop where
  | start : Appends engine start start
  | append {disk : Disk} (nonce : String) (event : SealedEvent engine.workspace.platform) (faults : List (Fault Torn Failure))
      (before : Appends engine start disk) : Appends engine start ((appendEvent engine nonce event.val).run disk faults).store
  | elsewhere {disk next : Disk} (before : Appends engine start disk) (frame : next.ledger = disk.ledger) :
      Appends engine start next

theorem Appends.leaves (chain : Chained engine start.ledger) (run : Appends engine start disk) :
    Chained engine disk.ledger ∧ start.ledger <+: disk.ledger := by
  induction run with
  | start => exact ⟨chain, prefix_refl _⟩
  | append nonce event faults before ih =>
    obtain ⟨verified, extended⟩ := appendEvent_leaves ih.1 event.property faults
    exact ⟨verified, ih.2.trans extended⟩
  | elsewhere before frame ih =>
    rw [frame]
    exact ih

theorem filter_length_le_one {events : List AuditEvent} (apart : (events.map AuditEvent.proposalId).Nodup)
    (proposalId : String) : (events.filter fun event => event.proposalId == proposalId).length ≤ 1 := by
  have once := nodup_iff_count_le_one.mp apart proposalId
  rw [List.count, countP_map, countP_eq_length_filter] at once
  exact once

end

variable (engine : TransactionEngine)

/-- An append of a sealed event to a ledger that verifies extends the file by exactly the canonical line
of the event, or finds the event in it and changes nothing, or raises with at most that line
written; over any run of appends no proposal has two events. -/
theorem appendEvent_contract :
    (∀ (nonce : String) (event : SealedEvent engine.workspace.platform) (start : Disk) (faults : List (Fault Torn Failure)),
      Chained engine start.ledger →
        AppendOutcome engine start.ledger event.val ((appendEvent engine nonce event.val).run start faults)) ∧
    ∀ start disk : Disk, Chained engine start.ledger → Appends engine start disk →
      readVerifiedEvents engine.workspace.platform engine.contextId (ledgerFile disk.ledger) = some disk.ledger ∧
        start.ledger <+: disk.ledger ∧
        ∀ proposalId, (disk.ledger.filter fun event => event.proposalId == proposalId).length ≤ 1 := by
  constructor
  · intro nonce event start faults chain
    exact appendEvent_outcome chain event.property faults
  · intro start disk chain run
    obtain ⟨verified, longer⟩ := run.leaves chain
    exact ⟨readVerifiedEvents_ledgerFile verified, longer, filter_length_le_one verified.proposalIds⟩

def sampleEngine : TransactionEngine where
  workspace :=
    { platform := samplePlatform
      maxAttempts := 20
      positive := Nat.zero_lt_succ _
      resolves := fun _ => true
      hasParent := fun _ => true
      plainParents := fun _ => true
      sameVolume := fun _ => true
      safeLeaf := fun _ => true }
  contextId := "demo"
  analyze _ _ _ _ _ := .ok ⟨[], none⟩
  liveConditions _ _ := .ok []
  validateWorkspace _ _ _ := .ok ⟨[]⟩
  compiles := by
    intro proposal requested time contents head analysis compiled ok some_
    cases ok
    cases some_
  ledgerRegular := ⟨rfl, rfl, rfl, rfl, rfl⟩

def sampleNonce : String := "0123456789abcdef0123456789abcdef"

def heldDisk : Disk := ⟨fun _ => none, fun _ => false, some sampleNonce, []⟩

def sampleSealed : SealedEvent sampleEngine.workspace.platform := ⟨sampleEvent, sampleEvent_chain.valid sampleEvent List.mem_cons_self⟩

set_option maxRecDepth 4000 in
/-- A first append, stopped on its way; and a run of that append alone. -/
theorem appendEvent_contract_sample :
    AppendOutcome sampleEngine heldDisk.ledger sampleSealed.val
        ((appendEvent sampleEngine sampleNonce sampleSealed.val).run heldDisk [.run, .run, .run, .crash .landed]) ∧
      (((appendEvent sampleEngine sampleNonce sampleSealed.val).run heldDisk [.run, .crash .landed]).store.ledger.filter
        fun event => event.proposalId == sampleEvent.proposalId).length ≤ 1 := by
  have empty : Chained sampleEngine heldDisk.ledger :=
    ⟨by simp [heldDisk], by simp [heldDisk], List.nodup_nil, List.nodup_nil, trivial⟩
  have run := Appends.append sampleNonce sampleSealed [.run, .crash .landed] (@Appends.start sampleEngine heldDisk)
  constructor
  · exact (appendEvent_contract sampleEngine).1 sampleNonce sampleSealed heldDisk [.run, .run, .run, .crash .landed] empty
  · have kept := (appendEvent_contract sampleEngine).2 heldDisk _ empty run
    exact kept.2.2 sampleEvent.proposalId

end Workctx.Engine
