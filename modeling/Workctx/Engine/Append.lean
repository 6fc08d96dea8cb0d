import Workctx.Engine.Proposal
import Workctx.Ledger.Verify

/-! The ledger on disk: the strict read through the context boundary, and the idempotent append
whose outcome is decided by reading the ledger again. -/

namespace Workctx.Engine
open Workctx.Durable Workctx.Text Workctx.Domain Workctx.Staging Workctx.Ledger List

def ledgerFile (events : List AuditEvent) : Option Bytes := if events = [] then none else some (encodeLedger events)

def findUnique (events : List AuditEvent) (test : AuditEvent → Bool) : Except Failure (Option AuditEvent) :=
  match events.filter test with
  | [] => .ok none
  | [event] => .ok (some event)
  | _ => .error .ledgerIntegrity

def matchingReplay (events : List AuditEvent) (candidate : AuditEvent) : Except Failure (Option AuditEvent) := do
  let matchingId ← findUnique events fun event => event.id == candidate.id
  let matchingProposal ← findUnique events fun event => event.proposalId == candidate.proposalId
  if matchingId.isNone && matchingProposal.isNone then .ok none
  else do
    demand (matchingId == matchingProposal && matchingId == some candidate) .ledgerIntegrity
    .ok matchingId

section
variable (engine : TransactionEngine)

/-- `_read_verified_events` -/
def readLedger (disk : Disk) : Except Failure (List AuditEvent) :=
  if nestedContext disk ledgerPath then .error .ledgerIntegrity
  else match readVerifiedEvents engine.workspace.platform engine.contextId (ledgerFile disk.ledger) with
    | some events => .ok events
    | none => .error .ledgerIntegrity

def findEventByProposalId (proposalId : String) (disk : Disk) : Except Failure (Option AuditEvent) := do
  demand (proposalId != "") (.invalidValue "proposal_id must not be empty")
  let events ← readLedger engine disk
  findUnique events fun event => event.proposalId == proposalId

def ledgerHash (events : List AuditEvent) : Option String :=
  (ledgerFile events).map engine.workspace.platform.contentHash

/-- The ledger file is replaced by its former bytes and one more line. -/
def appendStep (before : List AuditEvent) (event : AuditEvent) : Step Disk Torn :=
  .atomic fun disk => { disk with ledger := before ++ [event] }

def validateActiveIntentIfPresent (disk : Disk) : Except Failure Unit :=
  if (disk.files .intent).isSome then (loadIntent engine.workspace false disk).map fun _ => () else .ok ()

def revalidateLedger : Action Unit :=
  .check fun disk => demand (parentsPlain engine.workspace disk ledgerPath && engine.workspace.safeLeaf ledgerPath)
    (.contextBoundary "File parent must be a directory: ledger.jsonl")

/-- `verify_attempt` of `atomic_append_line_bytes`. -/
def verifyAppendAttempt (nonce : String) (before : List AuditEvent) : Action Unit := do
  revalidateLedger engine
  .check fun disk => demand (ledgerHash engine disk.ledger == ledgerHash engine before)
    (.recoveryRequired "Target changed during atomic replacement: ledger.jsonl")
  revalidateLedger engine
  verifyLock nonce (some nonce)

/-- `atomic_append_line_bytes` for the ledger. The temporary file is not in this model. -/
def atomicAppendLineBytes (nonce : String) (event : AuditEvent) : Action Unit := do
  .ensure (isNonce nonce) (.invalidValue "nonce must be a lowercase 128-bit hexadecimal value")
  .check fun disk => (resolveTarget engine.workspace false disk ledgerPath).map fun _ => ()
  verifyLock nonce (some nonce)
  .check fun disk => validateActiveIntentIfPresent engine disk
  ensureRuntimeDirectories
  .perform scratchStep
  revalidateLedger engine
  .ensure (engine.workspace.sameVolume ledgerPath) (.staging "Staged postimage and target must be on the same volume")
  let before ← .observe Disk.ledger
  .cleanup
    (do
      verifyLock nonce (some nonce)
      .perform scratchStep
      .retry isPermission (remainedUnavailable engine.workspace "Atomic replacement")
        (verifyAppendAttempt engine nonce before) (.perform (appendStep before event)) engine.workspace.maxAttempts)
    (.perform scratchStep)

/-- The read behind the append: what it finds decides the outcome. -/
def confirmAppend (event : AuditEvent) (unconfirmed : Failure) : Action AuditEvent := do
  let committed ← .check fun disk => do
    let after ← readLedger engine disk
    matchingReplay after event
  match committed with
  | some committed => .ret committed
  | none => .raise unconfirmed

/-- What `append_event` finds before it writes: a replay, or the place of the event. -/
def placeEvent (event : AuditEvent) (disk : Disk) : Except Failure (Option AuditEvent) := do
  let before ← readLedger engine disk
  let replay ← matchingReplay before event
  match replay with
  | some event => .ok (some event)
  | none => do
    demand (event.contextId == engine.contextId) .ledgerIntegrity
    demand (event.prevHash == headHash before) .ledgerIntegrity
    demand (some event.eventHash == computeEventHash engine.workspace.platform event) .ledgerIntegrity
    .ok none

def appendEvent (nonce : String) (event : AuditEvent) : Action AuditEvent := do
  verifyLock nonce none
  let replay ← .check fun disk => placeEvent engine event disk
  match replay with
  | some replay => .ret replay
  | none =>
    .attempt (atomicAppendLineBytes engine nonce event) (fun _ => confirmAppend engine event .ledgerIntegrity)
      fun failure => confirmAppend engine event failure

end

/-! Reading. -/

section
variable {engine : TransactionEngine} {start disk : Disk} {total : Prop} {nonce : String} {event : AuditEvent}

def Chained (engine : TransactionEngine) (events : List AuditEvent) : Prop :=
  EventChain engine.workspace.platform engine.contextId events

def withEvent (disk : Disk) (event : AuditEvent) : Disk := { disk with ledger := disk.ledger ++ [event] }

variable {events : List AuditEvent} {test : AuditEvent → Bool} {pre : Disk → Prop}

theorem readVerifiedEvents_ledgerFile {platform : Platform} {contextId : String}
    (chain : EventChain platform contextId events) :
    readVerifiedEvents platform contextId (ledgerFile events) = some events := by
  unfold ledgerFile
  split
  · next empty =>
    rw [empty]
    rfl
  · next nonempty => exact (readVerifiedEvents_iff platform contextId).mpr ⟨nonempty, rfl, chain⟩

section
variable (chain : Chained engine disk.ledger)
include chain

theorem readLedger_eq :
    readLedger engine disk = if nestedContext disk ledgerPath then .error .ledgerIntegrity else .ok disk.ledger := by
  unfold readLedger
  rw [readVerifiedEvents_ledgerFile chain]

theorem readLedger_ok
    (read : readLedger engine disk = .ok events) : events = disk.ledger ∧ nestedContext disk ledgerPath = false := by
  rw [readLedger_eq chain] at read
  split at read
  · cases read
  · next opened =>
    cases read
    exact ⟨rfl, Bool.not_eq_true _ ▸ opened⟩

theorem readLedger_of (opened : nestedContext disk ledgerPath = false) :
    readLedger engine disk = .ok disk.ledger := by
  rw [readLedger_eq chain, opened]
  rfl

end

section
variable (fresh : ∀ event ∈ events, test event = false)
include fresh

theorem filter_eq_nil_of_fresh : events.filter test = [] := by
  rw [filter_eq_nil_iff]
  intro event member
  rw [fresh event member]
  exact Bool.false_ne_true

theorem findUnique_fresh : findUnique events test = .ok none := by
  rw [findUnique, filter_eq_nil_of_fresh fresh]

theorem findUnique_last (last : test event = true) :
    findUnique (events ++ [event]) test = .ok (some event) := by
  rw [findUnique, filter_append, filter_eq_nil_of_fresh fresh, filter_singleton, last]
  rfl

end

theorem findUnique_ok {found : AuditEvent}
    (ok : findUnique events test = .ok (some found)) : found ∈ events ∧ test found = true := by
  have member : found ∈ events.filter test := by
    unfold findUnique at ok
    split at ok
    · cases ok
    · next single =>
      rw [single]
      cases ok
      exact mem_cons_self
    · cases ok
  exact mem_filter.mp member

theorem findUnique_none (ok : findUnique events test = .ok none) :
    ∀ event ∈ events, test event = false := by
  have empty : events.filter test = [] := by
    unfold findUnique at ok
    split at ok
    · next empty => exact empty
    · cases ok
    · cases ok
  intro event member
  exact Bool.not_eq_true _ ▸ filter_eq_nil_iff.mp empty event member

/-! Matching. -/

theorem auditEventId_injective {one two : String} (first : isTransactionProposalId one = true)
    (second : isTransactionProposalId two = true) (same : auditEventId one = auditEventId two) : one = two := by
  have tagged : ∀ {id : String}, isTransactionProposalId id = true →
      id.toList = ['T', 'X', 'P', '-'] ++ removePrefix ['T', 'X', 'P', '-'] id.toList := by
    intro id valid
    rw [isTransactionProposalId, matchesStamped, Bool.and_eq_true] at valid
    obtain ⟨rest, split⟩ := isPrefixOf_iff_prefix.mp valid.1
    rw [removePrefix, if_pos valid.1, ← split, drop_left]
  have chars := congrArg String.toList same
  rw [auditEventId, auditEventId, String.toList_ofList, String.toList_ofList] at chars
  apply String.toList_inj.mp
  rw [tagged first, tagged second, append_cancel_left chars]

theorem Valid.derived {platform : Platform} {event : AuditEvent} (valid : event.Valid platform) :
    isTransactionProposalId event.proposalId = true ∧ event.id = auditEventId event.proposalId := by
  have content := valid.content
  simp only [AuditEvent.contentValid, Bool.and_eq_true, beq_iff_eq] at content
  exact ⟨content.1.1.1.1.1.1.1.1.1.1.1.1.1.2, content.1.1.1.1.2⟩

theorem matchingReplay_fresh (valids : ∀ other ∈ events, other.Valid engine.workspace.platform)
    (valid : event.Valid engine.workspace.platform) (fresh : ∀ other ∈ events, other.proposalId ≠ event.proposalId) :
    matchingReplay events event = .ok none ∧ matchingReplay (events ++ [event]) event = .ok (some event) := by
  have noProposal : ∀ other ∈ events, (other.proposalId == event.proposalId) = false := by
    intro other member
    exact beq_false_of_ne (fresh other member)
  have noId : ∀ other ∈ events, (other.id == event.id) = false := by
    intro other member
    apply beq_false_of_ne
    intro same
    rw [(Valid.derived (valids other member)).2, (Valid.derived valid).2] at same
    exact fresh other member
      (auditEventId_injective (Valid.derived (valids other member)).1 (Valid.derived valid).1 same)
  constructor
  · simp only [matchingReplay, findUnique_fresh noId, findUnique_fresh noProposal, bind, Except.bind]
    rfl
  · simp only [matchingReplay, findUnique_last noId (beq_self_eq_true _), findUnique_last noProposal (beq_self_eq_true _),
      bind, Except.bind, demand, beq_self_eq_true, Bool.and_self, if_true]
    rfl

/-! Appending. -/

def Appending (start : Disk) (event : AuditEvent) (disk : Disk) : Prop := disk = start ∨ disk = withEvent start event

theorem chained_concat (chain : Chained engine start.ledger) (valid : event.Valid engine.workspace.platform)
    (fresh : ∀ other ∈ start.ledger, other.proposalId ≠ event.proposalId) (context : event.contextId = engine.contextId)
    (linked : event.prevHash = headHash start.ledger) : Chained engine (start.ledger ++ [event]) := by
  have absent : event.proposalId ∉ start.ledger.map AuditEvent.proposalId := by
    intro member
    obtain ⟨other, inside, same⟩ := mem_map.mp member
    exact fresh other inside same
  have absentId : event.id ∉ start.ledger.map AuditEvent.id := by
    intro member
    obtain ⟨other, inside, same⟩ := mem_map.mp member
    rw [(Valid.derived (chain.valid other inside)).2, (Valid.derived valid).2] at same
    exact fresh other inside
      (auditEventId_injective (Valid.derived (chain.valid other inside)).1 (Valid.derived valid).1 same)
  refine ⟨fun other member => ?_, fun other member => ?_, ?_, ?_, ?_⟩
  · rcases mem_append.mp member with earlier | last
    · exact chain.valid other earlier
    · rw [mem_singleton.mp last]
      exact valid
  · rcases mem_append.mp member with earlier | last
    · exact chain.context other earlier
    · rw [mem_singleton.mp last]
      exact context
  · rw [map_append, map_singleton]
    exact nodup_concat.mpr ⟨chain.ids, absentId⟩
  · rw [map_append, map_singleton]
    exact nodup_concat.mpr ⟨chain.proposalIds, absent⟩
  · exact (Chain.linked_concat _ _ _ _ _).mpr ⟨chain.linked, linked⟩

structure Appendable (engine : TransactionEngine) (nonce : String) (disk : Disk) : Prop where
  nonceValid : isNonce nonce = true
  opened : nestedContext disk ledgerPath = false
  held : disk.lock = some nonce
  intent : validateActiveIntentIfPresent engine disk = .ok ()

theorem revalidateLedger_triple {cut : Disk → Prop} (stopped : ∀ disk, pre disk → cut disk)
    (opened : total → ∀ disk, pre disk → nestedContext disk ledgerPath = false) :
    Triple total pre (revalidateLedger engine) (fun _ => pre) cut := by
  refine (Triple.check_keep stopped ?_).forget
  intro must disk holds
  refine ⟨(), demand_ok.mpr ?_⟩
  rw [parentsPlain_of engine.ledgerRegular (opened must disk holds), engine.ledgerRegular.safeLeaf]
  rfl

theorem verifyAppendAttempt_triple {cut : Disk → Prop} {before : List AuditEvent}
    (stopped : ∀ disk, pre disk → cut disk)
    (ready : total → ∀ disk, pre disk → nestedContext disk ledgerPath = false ∧ disk.lock = some nonce ∧
      disk.ledger = before) :
    Triple total pre (verifyAppendAttempt engine nonce before) (fun _ => pre) cut := by
  have opened : total → ∀ disk, pre disk → nestedContext disk ledgerPath = false :=
    fun must disk holds => (ready must disk holds).1
  unfold verifyAppendAttempt
  refine Triple.bind (revalidateLedger_triple stopped opened) fun _ => ?_
  refine Triple.bind (Triple.check_keep stopped ?_).forget fun _ => ?_
  · intro must disk holds
    refine ⟨(), demand_ok.mpr ?_⟩
    rw [(ready must disk holds).2.2]
    exact beq_self_eq_true _
  refine Triple.bind (revalidateLedger_triple stopped opened) fun _ => verifyLock_triple stopped ?_
  intro must disk holds
  exact ⟨(ready must disk holds).2.1, beq_self_eq_true _⟩

theorem scratch_keep {cut : Disk → Prop} (stopped : ∀ disk, pre disk → cut disk) :
    Triple total pre (.perform scratchStep : Action Unit) (fun _ => pre) cut :=
  Triple.perform fun disk holds => ⟨holds, stopped disk holds, stopped disk holds, fun _ => stopped disk holds⟩

/-- The file is replaced at once, so an attempt that stops has appended the event or not. -/
theorem atomicAppendLineBytes_triple (ready : total → Appendable engine nonce start) :
    Triple total (fun disk => disk = start) (atomicAppendLineBytes engine nonce event)
      (fun _ disk => disk = withEvent start event) (Appending start event) := by
  have begin : ∀ disk, disk = start → Appending start event disk := fun _ => .inl
  have held : total → ∀ disk, disk = start → Fenced nonce (some nonce) disk := by
    intro must disk same
    rw [same]
    exact ⟨(ready must).held, beq_self_eq_true _⟩
  have stepped : ∀ disk, Appending start event disk → (appendStep start.ledger event).effect disk = withEvent start event := by
    intro disk reached
    rcases reached with same | same <;> rw [same] <;> rfl
  have append : ∀ {total : Prop} {pre : Disk → Prop}, (∀ disk, pre disk → Appending start event disk) →
      Triple total pre (.perform (appendStep start.ledger event) : Action Unit) (fun _ disk => disk = withEvent start event)
        (Appending start event) := by
    intro total pre stopped
    apply Triple.perform
    intro disk holds
    have done := stepped disk (stopped disk holds)
    exact ⟨done, stopped disk holds, .inr done, fun _ => stopped disk holds⟩
  unfold atomicAppendLineBytes
  refine Triple.bind (Triple.ensure_keep begin fun must _ _ => (ready must).nonceValid).forget fun _ => ?_
  refine Triple.bind (Triple.check_keep begin ?_).forget fun _ => ?_
  · intro must disk same
    have canonical : canonicalTarget ledgerPath = some ledgerPath := by decide
    have resolved : resolveTarget engine.workspace false disk ledgerPath = .ok ledgerPath := by
      apply resolveTarget_ok.mpr
      rw [same]
      exact ⟨canonical, engine.ledgerRegular.resolves, (ready must).opened⟩
    rw [resolved]
    exact ⟨(), rfl⟩
  refine Triple.bind (verifyLock_triple begin held) fun _ => ?_
  refine Triple.bind (Triple.check_keep begin ?_).forget fun _ => ?_
  · intro must disk same
    rw [same]
    exact ⟨(), (ready must).intent⟩
  refine Triple.bind (ensureRuntimeDirectories_triple.stopping begin) fun _ => ?_
  refine Triple.bind (scratch_keep begin) fun _ => ?_
  refine Triple.bind (revalidateLedger_triple begin fun must disk same => same ▸ (ready must).opened) fun _ => ?_
  refine Triple.bind (Triple.ensure_keep begin fun must _ _ => engine.ledgerRegular.sameVolume).forget fun _ => ?_
  have looked : Triple total (fun disk => disk = start) (.observe Disk.ledger : Action (List AuditEvent))
      (fun before disk => disk = start ∧ before = start.ledger) (Appending start event) :=
    Triple.observe fun disk same => ⟨same, by rw [same]⟩
  refine Triple.bind looked fun before => Triple.of_each fun disk seen => ?_
  rw [seen.1, seen.2]
  have swept : Triple total (fun disk => disk = withEvent start event) (.perform scratchStep : Action Unit)
      (fun _ disk => disk = withEvent start event) (Appending start event) := scratch_keep fun _ => .inr
  have cleared : Triple False (Appending start event) (.perform scratchStep : Action Unit)
      (fun _ => Appending start event) (Appending start event) := scratch_keep fun _ => id
  refine Triple.cleanup ?_ (fun _ => id) (fun _ => swept) cleared
  refine Triple.bind (verifyLock_triple begin held) fun _ => Triple.bind (scratch_keep begin) fun _ => ?_
  refine Triple.retry engine.workspace.positive (verifyAppendAttempt_triple begin ?_) (append begin) ?_
  · intro must disk same
    rw [same]
    exact ⟨(ready must).opened, (ready must).held, rfl⟩
  · exact Triple.bind (verifyAppendAttempt_triple (fun _ => id) False.elim) fun _ => append fun _ => id

theorem confirmAppend_triple {unconfirmed : Failure} (chain : Chained engine start.ledger)
    (extended : Chained engine (withEvent start event).ledger)
    (fresh : ∀ other ∈ start.ledger, other.proposalId ≠ event.proposalId)
    (reached : ∀ disk, pre disk → Appending start event disk)
    (done : total → (∀ disk, pre disk → disk = withEvent start event) ∧ nestedContext start ledgerPath = false) :
    Triple total pre (confirmAppend engine event unconfirmed)
      (fun committed disk => committed = event ∧ disk = withEvent start event) (Appending start event) := by
  have valid : event.Valid engine.workspace.platform := extended.valid event (by simp [withEvent])
  obtain ⟨before, after⟩ := matchingReplay_fresh chain.valid valid fresh
  have read : ∀ disk, disk = withEvent start event → nestedContext start ledgerPath = false →
      (do
        let after ← readLedger engine disk
        matchingReplay after event) = .ok (some event) := by
    intro disk same opened
    have opened' : nestedContext (withEvent start event) ledgerPath = false :=
      (nestedContext_congr (show Kept start (withEvent start event) from fun _ => rfl) ledgerPath).trans opened
    rw [same, readLedger_of extended opened']
    exact after
  unfold confirmAppend
  refine Triple.bind (Triple.check_keep reached ?_) fun committed => ?_
  · intro must disk holds
    exact ⟨_, read disk ((done must).1 disk holds) (done must).2⟩
  apply Triple.of_each
  intro disk seen
  obtain ⟨holds, found⟩ := seen
  obtain ⟨events, ok, match_⟩ := except_bind_ok.mp found
  cases committed with
  | none =>
    refine Triple.raise fun now same => ⟨same ▸ reached disk holds, fun must => ?_⟩
    have other := read disk ((done must).1 disk holds) (done must).2
    rw [found] at other
    cases other
  | some committed =>
    refine Triple.ret fun now same => ?_
    rw [same]
    rcases reached disk holds with unchanged | appended
    · rw [unchanged] at ok
      rw [(readLedger_ok chain ok).1, before] at match_
      cases match_
    · rw [appended] at ok
      rw [(readLedger_ok extended ok).1] at match_
      rw [withEvent, after] at match_
      cases match_
      exact ⟨rfl, appended⟩

theorem appendEvent_triple (chain : Chained engine start.ledger) (valid : event.Valid engine.workspace.platform)
    (fresh : ∀ other ∈ start.ledger, other.proposalId ≠ event.proposalId)
    (ready : total → Appendable engine nonce start ∧ event.contextId = engine.contextId ∧
      event.prevHash = headHash start.ledger) :
    Triple total (fun disk => disk = start) (appendEvent engine nonce event)
      (fun committed disk => committed = event ∧ disk = withEvent start event ∧ Chained engine disk.ledger)
      (fun disk => Appending start event disk ∧ Chained engine disk.ledger) := by
  have begin : ∀ disk, disk = start → Appending start event disk ∧ Chained engine disk.ledger := by
    intro disk same
    rw [same]
    exact ⟨.inl rfl, chain⟩
  have before := (matchingReplay_fresh chain.valid valid fresh).1
  unfold appendEvent
  refine Triple.bind (verifyLock_triple begin fun must disk same => ?_) fun _ => ?_
  · rw [same]
    exact ⟨(ready must).1.held, rfl⟩
  refine Triple.bind (Triple.check_keep begin ?_) fun replay => Triple.of_each fun disk seen => ?_
  · intro must disk same
    obtain ⟨able, context, linked⟩ := ready must
    refine ⟨none, ?_⟩
    rw [same, placeEvent, readLedger_of chain able.opened]
    simp only [bind, Except.bind, before, context, linked, computeEventHash_eq, ← valid.eventHash, demand,
      beq_self_eq_true, if_true]
  obtain ⟨same, placed⟩ := seen
  rw [same] at placed ⊢
  obtain ⟨events, read, placed⟩ := except_bind_ok.mp placed
  rw [(readLedger_ok chain read).1] at placed
  obtain ⟨replayed, matched, placed⟩ := except_bind_ok.mp placed
  rw [before] at matched
  cases matched
  obtain ⟨context, placed⟩ := demand_bind_ok.mp placed
  obtain ⟨linked, placed⟩ := demand_bind_ok.mp placed
  obtain ⟨_, placed⟩ := demand_bind_ok.mp placed
  cases placed
  have extended : Chained engine (withEvent start event).ledger :=
    chained_concat chain valid fresh (beq_iff_eq.mp context) (beq_iff_eq.mp linked)
  have known : ∀ disk, Appending start event disk → Appending start event disk ∧ Chained engine disk.ledger := by
    intro disk reached
    refine ⟨reached, ?_⟩
    rcases reached with same | same
    · rw [same]
      exact chain
    · rw [same]
      exact extended
  have whole : Triple total (fun disk => disk = start)
      (.attempt (atomicAppendLineBytes engine nonce event) (fun _ => confirmAppend engine event .ledgerIntegrity)
        fun failure => confirmAppend engine event failure)
      (fun committed disk => committed = event ∧ disk = withEvent start event) (Appending start event) := by
    apply Triple.attempt (atomicAppendLineBytes_triple fun must => (ready must).1) (fun _ => id)
    · intro _
      apply confirmAppend_triple chain extended fresh (fun _ => .inr)
      intro must
      exact ⟨fun _ => id, (ready must).1.opened⟩
    · intro failure
      exact confirmAppend_triple chain extended fresh (fun _ => id) False.elim
  apply whole.weaken (fun _ => id) _ known
  intro committed disk done
  refine ⟨done.1, done.2, ?_⟩
  rw [done.2]
  exact extended

end
end Workctx.Engine
