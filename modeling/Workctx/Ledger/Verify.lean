import Workctx.Chain.Linked
import Workctx.Domain.Audit

/-! The canonical ledger: the bytes of an event, the strict reader, and what an accepted
ledger is. -/

namespace Workctx.Ledger
open Workctx.Json Workctx.Text Workctx.Domain Workctx.Chain List

variable (platform : Platform) (contextId : String)

/-! The bytes of an event. -/

/-- `_canonical_event_bytes`: the readable serializer, read back and written compactly. -/
def canonicalEventBytes (event : AuditEvent) : Option Bytes :=
  (loads (dumpsIndented event.data ++ ['\n'])).map fun data => encodeUtf8 (dumpsCompact data)

def computeEventHash (event : AuditEvent) : Option String :=
  (canonicalEventBytes { event with eventHash := "" }).map platform.sha256Hex

def encodeEventLine (event : AuditEvent) : Option Bytes :=
  (canonicalEventBytes event).map fun bytes => bytes ++ [linefeed]

/-! The reader. Every refusal is the same `LedgerIntegrityError`. -/

def decodeEvent (line : Bytes) : Option AuditEvent := do
  let text ← decodeUtf8 line
  let loaded ← loadsDistinct text
  let members ← asMembers loaded
  AuditEvent.modelValidate platform members

def acceptLine (eventIds proposalIds : List String) (expectedPrevHash : String) (line : Bytes) :
    Option AuditEvent := do
  let event ← decodeEvent platform line
  require (event.contextId == contextId)
  require ((← encodeEventLine event).dropLast == line)
  require !(eventIds.contains event.id)
  require !(proposalIds.contains event.proposalId)
  require (event.prevHash == expectedPrevHash)
  require (some event.eventHash == computeEventHash platform event)
  return event

def verifyLines (events : List AuditEvent) (eventIds proposalIds : List String) (expectedPrevHash : String) :
    List Bytes → Option (List AuditEvent)
  | [] => some events
  | line :: rest => do
    let event ← acceptLine platform contextId eventIds proposalIds expectedPrevHash line
    verifyLines (events ++ [event]) (eventIds ++ [event.id]) (proposalIds ++ [event.proposalId]) event.eventHash rest

def byteOrderMark : Bytes := [0xEF, 0xBB, 0xBF]

def carriageReturn : UInt8 := 13

/-- `_read_verified_events`; a missing file is the ledger without events. -/
def readVerifiedEvents : Option Bytes → Option (List AuditEvent)
  | none => some []
  | some raw => do
    require !raw.isEmpty
    require !(byteOrderMark.isPrefixOf raw)
    require !(raw.contains carriageReturn)
    require (raw.getLast? == some linefeed)
    require (decodeUtf8 raw).isSome
    let lines := raw.dropLast.splitOn linefeed
    require !(lines.any List.isEmpty)
    verifyLines platform contextId [] [] [] zeroRevision lines

/-! What is accepted. -/

/-- A chain of events of one context, from the zero revision, with distinct identities. -/
structure EventChain (events : List AuditEvent) : Prop where
  valid : ∀ event ∈ events, event.Valid platform
  context : ∀ event ∈ events, event.contextId = contextId
  ids : (events.map AuditEvent.id).Nodup
  proposalIds : (events.map AuditEvent.proposalId).Nodup
  linked : Linked AuditEvent.prevHash AuditEvent.eventHash zeroRevision events

def headHash (events : List AuditEvent) : String := head AuditEvent.eventHash zeroRevision events

def encodeLedger (events : List AuditEvent) : Bytes := events.flatMap AuditEvent.canonicalLineBytes

/-! The bytes of an event. -/

theorem operation_exact (operation : AuditOperation) : operation.data.Exact := by
  cases operation <;> simp [AuditOperation.data, Value.Exact, MembersExact]

theorem actor_exact (actor : Actor) : actor.data.Exact := by
  cases actor <;> simp [Actor.data, Value.Exact, MembersExact]

theorem strings_exact (texts : List String) : ElementsExact (texts.map .string) := by
  rw [elementsExact_iff]
  intro item member
  obtain ⟨text, _, rfl⟩ := mem_map.mp member
  trivial

theorem event_exact (event : AuditEvent) : event.data.Exact := by
  have operations : ElementsExact (event.operations.map AuditOperation.data) := by
    rw [elementsExact_iff]
    intro item member
    obtain ⟨operation, _, rfl⟩ := mem_map.mp member
    exact operation_exact operation
  by_cases none : event.acknowledgedPaths = [] <;>
    simp [AuditEvent.data, AuditEvent.members, acknowledgedMember, none, Value.Exact, MembersExact, strings_exact,
      actor_exact, operations]

theorem operation_noDuplicateObjectKeys (operation : AuditOperation) :
    operation.data.noDuplicateObjectKeys = true := by
  cases operation <;>
    simp [AuditOperation.data, Value.noDuplicateObjectKeys, membersNoDuplicateObjectKeys]

theorem actor_noDuplicateObjectKeys (actor : Actor) : actor.data.noDuplicateObjectKeys = true := by
  cases actor <;> simp [Actor.data, Value.noDuplicateObjectKeys, membersNoDuplicateObjectKeys]

theorem event_noDuplicateObjectKeys (event : AuditEvent) : event.data.noDuplicateObjectKeys = true := by
  have operations := elementsNoDuplicateObjectKeys_map event.operations operation_noDuplicateObjectKeys
  have texts : ∀ texts : List String, elementsNoDuplicateObjectKeys (texts.map .string) = true :=
    fun texts => elementsNoDuplicateObjectKeys_map texts fun text => rfl
  by_cases none : event.acknowledgedPaths = [] <;>
    simp [AuditEvent.data, AuditEvent.members, acknowledgedMember, none, Value.noDuplicateObjectKeys,
      membersNoDuplicateObjectKeys, actor_noDuplicateObjectKeys, operations, texts]

theorem canonicalEventBytes_eq (event : AuditEvent) :
    canonicalEventBytes event = some (encodeUtf8 (dumpsCompact event.data)) := by
  rw [canonicalEventBytes, dumpsIndented, loads_print (indented_blank 2) (event_exact event) (by simp [isWhitespace])]
  rfl

theorem computeEventHash_eq (event : AuditEvent) :
    computeEventHash platform event = some (event.expectedEventHash platform) := by
  rw [computeEventHash, canonicalEventBytes_eq]
  rfl

theorem encodeEventLine_eq (event : AuditEvent) : encodeEventLine event = some event.canonicalLineBytes := by
  rw [encodeEventLine, canonicalEventBytes_eq, AuditEvent.canonicalLineBytes, encodeUtf8_append]
  rfl

def lineOf (event : AuditEvent) : Bytes := encodeUtf8 (dumpsCompact event.data)

theorem canonicalLineBytes_eq (event : AuditEvent) : event.canonicalLineBytes = lineOf event ++ [linefeed] := by
  rw [AuditEvent.canonicalLineBytes, encodeUtf8_append]
  rfl

theorem encodeLedger_eq_joinLines (events : List AuditEvent) : encodeLedger events = joinLines (events.map lineOf) := by
  rw [encodeLedger, joinLines, flatMap_map]
  exact congrArg (events.flatMap ·) (funext canonicalLineBytes_eq)

theorem control_not_mem_lineOf (event : AuditEvent) {byte : UInt8} (control : byte.toNat < 32) :
    byte ∉ lineOf event := by
  refine not_mem_encodeUtf8 (by omega) fun c member same => ?_
  have printable := dumpsCompact_printable (event_exact event) member
  omega

theorem lineOf_cons (event : AuditEvent) : ∃ rest, lineOf event = 0x7B :: rest := by
  obtain ⟨key, first, others, whole⟩ : ∃ key first others, event.members = (key, first) :: others := by
    rw [AuditEvent.members]
    exact ⟨_, _, _, rfl⟩
  rw [lineOf, AuditEvent.data, dumpsCompact, whole, print, encodeUtf8, flatMap_cons]
  exact ⟨_, rfl⟩

/-! The loop. -/

theorem decodeEvent_lineOf (event : AuditEvent) :
    decodeEvent platform (lineOf event) = AuditEvent.modelValidate platform event.members := by
  rw [decodeEvent, lineOf, decodeUtf8_encodeUtf8]
  simp only [Option.bind_eq_bind, Option.bind_some]
  rw [loadsDistinct, loads_dumpsCompact (event_exact event)]
  simp only [Option.bind_some, event_noDuplicateObjectKeys, if_true]
  rfl

theorem acceptLine_iff {eventIds proposalIds : List String} {expected : String} {line : Bytes} {event : AuditEvent} :
    acceptLine platform contextId eventIds proposalIds expected line = some event ↔
      line = lineOf event ∧ event.Valid platform ∧ event.contextId = contextId ∧ event.id ∉ eventIds ∧
        event.proposalId ∉ proposalIds ∧ event.prevHash = expected := by
  constructor
  · intro accepted
    simp only [acceptLine, require, Option.bind_eq_bind, Option.bind_eq_some_iff, encodeEventLine_eq,
      computeEventHash_eq, Option.pure_def, Option.some.injEq, canonicalLineBytes_eq] at accepted
    obtain ⟨read, decoded, _, context, _, rfl, _, same, _, id, _, proposal, _, linked, _, _, rfl⟩ := accepted
    simp only [Option.ite_none_right_eq_some, and_true, beq_iff_eq, Bool.not_eq_true', contains_eq_mem,
      decide_eq_false_iff_not, dropLast_concat] at context same id proposal linked
    subst same
    rw [decodeEvent_lineOf] at decoded
    exact ⟨rfl, ((AuditEvent.valid_iff platform read).mpr decoded).1, context, id, proposal, linked⟩
  · rintro ⟨rfl, valid, context, id, proposal, linked⟩
    simp [acceptLine, require, decodeEvent_lineOf, AuditEvent.modelValidate_members valid, encodeEventLine_eq,
      computeEventHash_eq, canonicalLineBytes_eq, context, id, proposal, linked, ← valid.eventHash]

theorem nodup_concat {items : List String} {last : String} :
    (items ++ [last]).Nodup ↔ items.Nodup ∧ last ∉ items := by
  rw [nodup_append]
  refine and_congr_right fun _ => ⟨fun apart member => apart.2 last member last mem_cons_self rfl, ?_⟩
  intro absent
  refine ⟨nodup_cons.mpr ⟨not_mem_nil, nodup_nil⟩, fun item member other single same => ?_⟩
  rw [same, mem_singleton.mp single] at member
  exact absent member

theorem verifyLines_iff {lines : List Bytes} {events result : List AuditEvent} {eventIds proposalIds : List String}
    {expected : String} (ids : eventIds.Nodup) (proposals : proposalIds.Nodup) :
    verifyLines platform contextId events eventIds proposalIds expected lines = some result ↔
      ∃ more, result = events ++ more ∧ lines = more.map lineOf ∧ (∀ event ∈ more, event.Valid platform) ∧
        (∀ event ∈ more, event.contextId = contextId) ∧ (eventIds ++ more.map AuditEvent.id).Nodup ∧
        (proposalIds ++ more.map AuditEvent.proposalId).Nodup ∧
        Linked AuditEvent.prevHash AuditEvent.eventHash expected more := by
  induction lines generalizing events eventIds proposalIds expected with
  | nil =>
    rw [verifyLines, Option.some.injEq]
    constructor
    · rintro rfl
      exact ⟨[], by simp, rfl, by simp, by simp, by simpa using ids, by simpa using proposals, trivial⟩
    · rintro ⟨more, rfl, lines, _⟩
      rw [map_eq_nil_iff.mp lines.symm, append_nil]
  | cons line rest ih =>
    rw [verifyLines, Option.bind_eq_bind, Option.bind_eq_some_iff]
    constructor
    · rintro ⟨event, accepted, later⟩
      obtain ⟨rfl, valid, context, id, proposal, linked⟩ := (acceptLine_iff platform contextId).mp accepted
      have ids' := nodup_concat.mpr ⟨ids, id⟩
      have proposals' := nodup_concat.mpr ⟨proposals, proposal⟩
      obtain ⟨more, rfl, rfl, valids, contexts, moreIds, moreProposals, moreLinked⟩ := (ih ids' proposals').mp later
      exact ⟨event :: more, by simp, rfl, forall_mem_cons.mpr ⟨valid, valids⟩,
        forall_mem_cons.mpr ⟨context, contexts⟩, by simpa using moreIds, by simpa using moreProposals,
        linked, moreLinked⟩
    · rintro ⟨more, rfl, lines, valids, contexts, moreIds, moreProposals, linked⟩
      obtain ⟨event, others, rfl, rfl, rfl⟩ := map_eq_cons_iff.mp lines.symm
      obtain ⟨valid, valids⟩ := forall_mem_cons.mp valids
      obtain ⟨context, contexts⟩ := forall_mem_cons.mp contexts
      rw [map_cons, append_cons] at moreIds moreProposals
      have ids' := (nodup_append.mp moreIds).1
      have proposals' := (nodup_append.mp moreProposals).1
      have accepted := (acceptLine_iff platform contextId).mpr
        ⟨rfl, valid, context, (nodup_concat.mp ids').2, (nodup_concat.mp proposals').2, linked.1⟩
      refine ⟨event, accepted, (ih ids' proposals').mpr ?_⟩
      exact ⟨others, by simp, rfl, valids, contexts, moreIds, moreProposals, linked.2⟩

/-- The strict reader accepts exactly the concatenations of the canonical lines of nonempty
chains, and returns the chain. -/
theorem readVerifiedEvents_iff {raw : Bytes} {events : List AuditEvent} :
    readVerifiedEvents platform contextId (some raw) = some events ↔
      events ≠ [] ∧ raw = encodeLedger events ∧ EventChain platform contextId events := by
  constructor
  · intro accepted
    simp only [readVerifiedEvents, require, Option.bind_eq_bind, Option.bind_eq_some_iff,
      Option.ite_none_right_eq_some, beq_iff_eq] at accepted
    obtain ⟨_, _, _, _, _, _, _, ⟨ended, _⟩, _, _, _, _, loop⟩ := accepted
    obtain ⟨more, rfl, lines, valids, contexts, ids, proposals, linked⟩ :=
      (verifyLines_iff platform contextId nodup_nil nodup_nil).mp loop
    have whole := joinLines_splitOn ended
    rw [lines, ← encodeLedger_eq_joinLines] at whole
    have nonempty : events ≠ [] := by
      rintro rfl
      exact splitOn_ne_nil _ _ lines
    exact ⟨nonempty, whole.symm, valids, contexts, ids, proposals, linked⟩
  · rintro ⟨nonempty, rfl, valids, contexts, ids, proposals, linked⟩
    have lines : events.map lineOf ≠ [] := fun none => nonempty (map_eq_nil_iff.mp none)
    have clean : ∀ line ∈ events.map lineOf, linefeed ∉ line := by
      intro line member
      obtain ⟨event, _, rfl⟩ := mem_map.mp member
      exact control_not_mem_lineOf event (by decide)
    have loop : verifyLines platform contextId [] [] [] zeroRevision (events.map lineOf) = some events :=
      (verifyLines_iff platform contextId nodup_nil nodup_nil).mpr
        ⟨events, rfl, rfl, valids, contexts, ids, proposals, linked⟩
    obtain ⟨first, others, rfl⟩ := exists_cons_of_ne_nil nonempty
    obtain ⟨tail, opened⟩ := lineOf_cons first
    have bytes : encodeLedger (first :: others) = 0x7B :: (tail ++ (linefeed :: encodeLedger others)) := by
      rw [encodeLedger, flatMap_cons, canonicalLineBytes_eq, opened]
      simp [encodeLedger]
    have noReturn : carriageReturn ∉ encodeLedger (first :: others) := by
      intro member
      obtain ⟨event, _, inside⟩ := mem_flatMap.mp member
      rw [canonicalLineBytes_eq, mem_append, mem_singleton] at inside
      exact inside.elim (control_not_mem_lineOf event (by decide)) (by decide)
    have text : (decodeUtf8 (encodeLedger (first :: others))).isSome = true := by
      rw [encodeLedger_eq_joinLines]
      show (decodeUtf8 (joinLines ((first :: others).map fun event => encodeUtf8 (dumpsCompact event.data)))).isSome = true
      rw [joinLines_eq_flatMap_encodeUtf8, decodeUtf8_encodeUtf8]
      rfl
    have filled : ((first :: others).map lineOf).any List.isEmpty = false := by
      rw [any_eq_false]
      intro line member
      obtain ⟨event, _, rfl⟩ := mem_map.mp member
      obtain ⟨rest, opened⟩ := lineOf_cons event
      simp [opened]
    have ended : (encodeLedger (first :: others)).getLast? = some linefeed := by
      rw [encodeLedger_eq_joinLines, getLast?_joinLines lines]
    have cut : (encodeLedger (first :: others)).dropLast.splitOn linefeed = (first :: others).map lineOf := by
      rw [encodeLedger_eq_joinLines, splitOn_joinLines lines clean]
    have marked : byteOrderMark.isPrefixOf (encodeLedger (first :: others)) = false := by
      rw [bytes]
      rfl
    have started : (encodeLedger (first :: others)).isEmpty = false := by rw [bytes]; rfl
    simp only [readVerifiedEvents, require, started, marked, ended, text, cut, filled, loop, Option.bind_eq_bind,
      contains_eq_mem, decide_eq_false noReturn, Bool.not_false, if_true, Option.bind_some, beq_self_eq_true]

/-! What a head hash says about the bytes under it. -/

/-- The hash function tells apart the events of two ledgers, and none of them hashes to the
revision a ledger starts from. -/
structure CollisionFree (one two : List AuditEvent) : Prop where
  apart : ∀ first ∈ one, ∀ second ∈ two,
    platform.sha256Hex first.unhashedBytes = platform.sha256Hex second.unhashedBytes →
      first.unhashedBytes = second.unhashedBytes
  started : ∀ event ∈ one ++ two, platform.sha256Hex event.unhashedBytes ≠ zeroRevision

theorem eq_of_unhashedBytes {one two : AuditEvent} (oneValid : one.Valid platform) (twoValid : two.Valid platform)
    (same : one.unhashedBytes = two.unhashedBytes) : one = two := by
  have data := dumpsCompact_injective (event_exact _) (event_exact _) (encodeUtf8_injective same)
  have members : AuditEvent.ofMembers { one with eventHash := "" }.members =
      AuditEvent.ofMembers { two with eventHash := "" }.members := congrArg AuditEvent.ofMembers (Value.object.inj data)
  rw [AuditEvent.ofMembers_members, AuditEvent.ofMembers_members, oneValid.actor, twoValid.actor] at members
  have fields := Option.some.inj members
  have hash : one.eventHash = two.eventHash := by
    rw [oneValid.eventHash, twoValid.eventHash, AuditEvent.expectedEventHash, AuditEvent.expectedEventHash, same]
  cases one
  cases two
  simp_all

theorem eventChain_unique {one two : List AuditEvent} (collisionFree : CollisionFree platform one two)
    (oneChain : EventChain platform contextId one) (twoChain : EventChain platform contextId two)
    (same : headHash one = headHash two) : one = two := by
  refine linked_unique _ _ oneChain.linked twoChain.linked ?_ ?_ ?_ same
  · intro first member second other hash
    have oneValid := oneChain.valid first member
    have twoValid := twoChain.valid second other
    refine eq_of_unhashedBytes platform oneValid twoValid (collisionFree.apart first member second other ?_)
    rw [oneValid.eventHash, twoValid.eventHash] at hash
    exact hash
  · intro event member
    rw [(oneChain.valid event member).eventHash]
    exact collisionFree.started event (mem_append_left _ member)
  · intro event member
    rw [(twoChain.valid event member).eventHash]
    exact collisionFree.started event (mem_append_right _ member)

/-- The bytes of an accepted ledger are the lines of a nonempty chain, and its head hash
determines every one of them. -/
theorem ledger_tamper_evident :
    (∀ raw events, readVerifiedEvents platform contextId (some raw) = some events ↔
      events ≠ [] ∧ raw = encodeLedger events ∧ EventChain platform contextId events) ∧
    ∀ first second one two, readVerifiedEvents platform contextId (some first) = some one →
      readVerifiedEvents platform contextId (some second) = some two → CollisionFree platform one two →
      headHash one = headHash two → first = second := by
  refine ⟨fun raw events => readVerifiedEvents_iff platform contextId, ?_⟩
  intro first second one two firstAccepted secondAccepted collisionFree same
  obtain ⟨_, rfl, oneChain⟩ := (readVerifiedEvents_iff platform contextId).mp firstAccepted
  obtain ⟨_, rfl, twoChain⟩ := (readVerifiedEvents_iff platform contextId).mp secondAccepted
  rw [eventChain_unique platform contextId collisionFree oneChain twoChain same]

/-- A platform that answers as the real one for the event below. -/
def samplePlatform : Platform where
  sha256Hex _ := "74da1f14af43908e2a9af748e6a75406ceb78e2ae92dab9f79906a5d8bf837b4"
  hexDigest _ := by decide
  nfc := id
  casefold := id
  canonicalTimestamp := some
  validateDurableReference := some
  workctxContext _ := none

def sampleEvent : AuditEvent where
  id := "AUD-20250101T000000Z-note"
  proposalId := "TXP-20250101T000000Z-note"
  contextId := "demo"
  timestamp := "2025-01-01T00:00:00Z"
  actor := .human "ana"
  action := .apply
  result := .committed
  baseRevision := zeroRevision
  sourceRefs := []
  acknowledgedPaths := []
  operations :=
    [.create "02_knowledge/note.md" "sha256:389ed6887e49a315f706f6c2b931b1dcf0d797c91437124f32eb98555c669758"]
  prevHash := zeroRevision
  eventHash := "74da1f14af43908e2a9af748e6a75406ceb78e2ae92dab9f79906a5d8bf837b4"

theorem sampleEvent_chain : EventChain samplePlatform "demo" [sampleEvent] := by
  refine ⟨fun event member => ?_, fun event member => ?_, by decide, by decide, rfl, trivial⟩
  · rw [mem_singleton.mp member]
    exact ⟨by decide, rfl, by decide, by decide +kernel, rfl⟩
  · rw [mem_singleton.mp member]
    rfl

theorem ledger_tamper_evident_sample :
    readVerifiedEvents samplePlatform "demo" (some (encodeLedger [sampleEvent])) = some [sampleEvent] ∧
      encodeLedger [sampleEvent] = encodeLedger [sampleEvent] := by
  have accepted := ((ledger_tamper_evident samplePlatform "demo").1 (encodeLedger [sampleEvent]) [sampleEvent]).mpr
    ⟨by simp, rfl, sampleEvent_chain⟩
  refine ⟨accepted, (ledger_tamper_evident samplePlatform "demo").2 _ _ _ _ accepted accepted ?_ rfl⟩
  exact ⟨fun first member second other _ => by rw [List.mem_singleton.mp member, List.mem_singleton.mp other],
    fun _ _ => (by decide : samplePlatform.sha256Hex [] ≠ zeroRevision)⟩

/-- The empty byte string is the concatenation of no lines, and is refused. -/
theorem empty_ledger_file_refused :
    ¬ ∀ (platform : Platform) (contextId : String) (raw : Bytes),
      (readVerifiedEvents platform contextId (some raw)).isSome ↔
        ∃ events, raw = encodeLedger events ∧ EventChain platform contextId events := by
  intro claimed
  have accepted := (claimed samplePlatform "demo" []).mpr ⟨[], rfl, by simp, by simp, by simp, by simp, trivial⟩
  exact absurd accepted (by decide)

end Workctx.Ledger
