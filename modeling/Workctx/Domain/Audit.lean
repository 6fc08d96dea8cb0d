import Workctx.Domain.Patterns
import Workctx.Json.RoundTrip

/-! Hash-chained audit events: their fields, their canonical JSON object, and the model that
validates such an object. -/

namespace Workctx.Domain
open Workctx.Json Workctx.Text

inductive AuditOperation where
  | create (target postimageHash : String)
  | update (target preimageHash postimageHash : String)
  | move (source destination contentHash : String)
  | deleteGenerated (target preimageHash : String)
deriving DecidableEq

inductive Actor where
  | human (id : String)
  | agent (id agent model : String)
  | system (id : String)
deriving DecidableEq

inductive AuditAction where
  | apply
  | recovery
deriving DecidableEq

inductive AuditResult where
  | committed
  | rolledBack
deriving DecidableEq

/-- An `AuditEvent` in memory. Its schema version is always one, and its timestamp is kept as
the canonical text of the date-time. -/
structure AuditEvent where
  id : String
  proposalId : String
  contextId : String
  timestamp : String
  actor : Actor
  action : AuditAction
  result : AuditResult
  baseRevision : String
  sourceRefs : List String
  acknowledgedPaths : List String
  operations : List AuditOperation
  prevHash : String
  eventHash : String
deriving DecidableEq

/-! The JSON object of an event, in the declared order of the fields. -/

def AuditOperation.data : AuditOperation → Value
  | .create target postimageHash =>
    .object [("op", .string "create"), ("target", .string target), ("postimage_hash", .string postimageHash)]
  | .update target preimageHash postimageHash =>
    .object [("op", .string "update"), ("target", .string target), ("preimage_hash", .string preimageHash),
      ("postimage_hash", .string postimageHash)]
  | .move source destination contentHash =>
    .object [("op", .string "move"), ("source", .string source), ("destination", .string destination),
      ("content_hash", .string contentHash)]
  | .deleteGenerated target preimageHash =>
    .object [("op", .string "delete_generated"), ("target", .string target), ("preimage_hash", .string preimageHash)]

def Actor.data : Actor → Value
  | .human id => .object [("type", .string "human"), ("id", .string id), ("agent", .null), ("model", .null)]
  | .agent id agentName model =>
    .object [("type", .string "agent"), ("id", .string id), ("agent", .string agentName), ("model", .string model)]
  | .system id => .object [("type", .string "system"), ("id", .string id), ("agent", .null), ("model", .null)]

def AuditAction.text : AuditAction → String
  | .apply => "apply"
  | .recovery => "recovery"

def AuditResult.text : AuditResult → String
  | .committed => "committed"
  | .rolledBack => "rolled_back"

/-- `_omit_empty_acknowledged_paths`: the additive field is absent when it is empty. -/
def acknowledgedMember (paths : List String) : List (String × Value) :=
  if paths = [] then [] else [("acknowledged_paths", .array (paths.map .string))]

def AuditEvent.members (event : AuditEvent) : List (String × Value) :=
  [("schema_version", .int 1), ("id", .string event.id), ("proposal_id", .string event.proposalId),
    ("context_id", .string event.contextId), ("timestamp", .string event.timestamp), ("actor", event.actor.data),
    ("action", .string event.action.text), ("result", .string event.result.text),
    ("base_revision", .string event.baseRevision), ("source_refs", .array (event.sourceRefs.map .string))] ++
  acknowledgedMember event.acknowledgedPaths ++
  [("operations", .array (event.operations.map AuditOperation.data)), ("prev_hash", .string event.prevHash),
    ("event_hash", .string event.eventHash)]

/-- `_canonical_event_data` -/
def AuditEvent.data (event : AuditEvent) : Value := .object event.members

/-- The bytes `expected_event_hash` digests: the compact object with an empty event hash. -/
def AuditEvent.unhashedBytes (event : AuditEvent) : Bytes :=
  encodeUtf8 (dumpsCompact { event with eventHash := "" }.data)

def AuditEvent.expectedEventHash (platform : Platform) (event : AuditEvent) : String :=
  platform.sha256Hex event.unhashedBytes

def AuditEvent.canonicalLineBytes (event : AuditEvent) : Bytes := encodeUtf8 (dumpsCompact event.data ++ ['\n'])

/-! The validation of an object. -/

def field (members : List (String × Value)) (key : String) : Option Value :=
  (members.find? fun entry => entry.1 == key).map Prod.snd

/-- `extra="forbid"` -/
def onlyKeys (members : List (String × Value)) (keys : List String) : Bool :=
  members.all fun entry => keys.contains entry.1

def asText : Value → Option String
  | .string text => some text
  | _ => none

def asMembers : Value → Option (List (String × Value))
  | .object members => some members
  | _ => none

def asArray : Value → Option (List Value)
  | .array items => some items
  | _ => none

def textField (members : List (String × Value)) (key : String) : Option String := (field members key).bind asText

def isNull : Value → Bool
  | .null => true
  | _ => false

def nullField (members : List (String × Value)) (key : String) : Option Unit :=
  (field members key).bind fun value => if isNull value then some () else none

def boundedField (members : List (String × Value)) (key : String) : Option String :=
  (textField members key).bind fun text => if 1 ≤ text.length ∧ text.length ≤ 200 then some text else none

def require (test : Bool) : Option Unit := if test then some () else none

def AuditOperation.ofValue (value : Value) : Option AuditOperation := do
  let members ← asMembers value
  let op ← textField members "op"
  if op = "create" then
    require (onlyKeys members ["op", "target", "postimage_hash"])
    return .create (← textField members "target") (← textField members "postimage_hash")
  else if op = "update" then
    require (onlyKeys members ["op", "target", "preimage_hash", "postimage_hash"])
    return .update (← textField members "target") (← textField members "preimage_hash")
      (← textField members "postimage_hash")
  else if op = "move" then
    require (onlyKeys members ["op", "source", "destination", "content_hash"])
    return .move (← textField members "source") (← textField members "destination")
      (← textField members "content_hash")
  else if op = "delete_generated" then
    require (onlyKeys members ["op", "target", "preimage_hash"])
    return .deleteGenerated (← textField members "target") (← textField members "preimage_hash")
  else none

def Actor.ofValue (value : Value) : Option Actor := do
  let members ← asMembers value
  let type ← textField members "type"
  require (onlyKeys members ["type", "id", "agent", "model"])
  let id ← boundedField members "id"
  if type = "human" then
    nullField members "agent"
    nullField members "model"
    return .human id
  else if type = "agent" then
    return .agent id (← boundedField members "agent") (← boundedField members "model")
  else if type = "system" then
    nullField members "agent"
    nullField members "model"
    return .system id
  else none

def AuditAction.ofText (text : String) : Option AuditAction :=
  if text = "apply" then some .apply else if text = "recovery" then some .recovery else none

def AuditResult.ofText (text : String) : Option AuditResult :=
  if text = "committed" then some .committed else if text = "rolled_back" then some .rolledBack else none

def textsOf (value : Value) : Option (List String) := (asArray value).bind fun items => items.mapM asText

/-- A strict integer: neither a boolean nor a float stands for it. -/
def isSchemaVersionOne : Value → Bool
  | .int version => version == 1
  | _ => false

def eventKeys : List String :=
  ["schema_version", "id", "proposal_id", "context_id", "timestamp", "actor", "action", "result", "base_revision",
    "source_refs", "acknowledged_paths", "operations", "prev_hash", "event_hash"]

/-- The typed fields of an event, before its validators run. -/
def AuditEvent.ofMembers (members : List (String × Value)) : Option AuditEvent := do
  require (onlyKeys members eventKeys)
  require (isSchemaVersionOne (← field members "schema_version"))
  let id ← textField members "id"
  let proposalId ← textField members "proposal_id"
  let contextId ← textField members "context_id"
  let timestamp ← textField members "timestamp"
  let actor ← Actor.ofValue (← field members "actor")
  let action ← AuditAction.ofText (← textField members "action")
  let result ← AuditResult.ofText (← textField members "result")
  let baseRevision ← textField members "base_revision"
  let sourceRefs ← textsOf (← field members "source_refs")
  let acknowledgedPaths ← match field members "acknowledged_paths" with
    | none => some []
    | some value => textsOf value
  let operations ← (← asArray (← field members "operations")).mapM AuditOperation.ofValue
  let prevHash ← textField members "prev_hash"
  let eventHash ← textField members "event_hash"
  return { id, proposalId, contextId, timestamp, actor, action, result, baseRevision, sourceRefs, acknowledgedPaths,
           operations, prevHash, eventHash }

def AuditOperation.valid (platform : Platform) : AuditOperation → Bool
  | .create target postimageHash => validateContextPath platform target && isContentHash postimageHash
  | .update target preimageHash postimageHash =>
    validateContextPath platform target && isContentHash preimageHash && isContentHash postimageHash
  | .move source destination contentHash =>
    validateContextPath platform source && validateContextPath platform destination && isContentHash contentHash
  | .deleteGenerated target preimageHash => validateGeneratedPath platform target && isContentHash preimageHash

def AuditOperation.writtenPath : AuditOperation → Option String
  | .create target _ => some target
  | .update target _ _ => some target
  | .move _ destination _ => some destination
  | .deleteGenerated _ _ => none

def removePrefix (front text : List Char) : List Char := if front.isPrefixOf text then text.drop front.length else text

/-- `AUD-` and the proposal id without its `TXP-`. -/
def auditEventId (proposalId : String) : String :=
  String.ofList (['A', 'U', 'D', '-'] ++ removePrefix ['T', 'X', 'P', '-'] proposalId.toList)

def requireLocalReferenceContext (platform : Platform) (contextId value : String) : Bool :=
  !("workctx://".toList.isPrefixOf value.toList) || platform.workctxContext value == some contextId

def recoveryActorId : String := "workctx-transaction-recovery"

def AuditEvent.recoveryValid (event : AuditEvent) : Bool :=
  event.result == .rolledBack && event.actor == .system recoveryActorId && event.sourceRefs.isEmpty &&
    event.acknowledgedPaths.isEmpty

/-- The field constraints and `validate_producer_invariants`. -/
def AuditEvent.contentValid (platform : Platform) (event : AuditEvent) : Bool :=
  isAuditEventId event.id && isTransactionProposalId event.proposalId && isContextId event.contextId &&
    isRevision event.baseRevision && decide event.sourceRefs.Nodup &&
    event.acknowledgedPaths.all (validateContextPath platform) &&
    decide (event.acknowledgedPaths.map platform.pathKey).Nodup &&
    !event.operations.isEmpty && event.operations.all (AuditOperation.valid platform) && isRevision event.prevHash &&
    event.id == auditEventId event.proposalId && event.baseRevision == event.prevHash &&
    (event.action != .recovery || event.recoveryValid) &&
    event.sourceRefs.all (requireLocalReferenceContext platform event.contextId) &&
    event.acknowledgedPaths.all fun path => (event.operations.filterMap AuditOperation.writtenPath).contains path

/-- `AuditEvent.model_validate` on a decoded object: typed fields, canonical forms, invariants
and the event hash. -/
def AuditEvent.modelValidate (platform : Platform) (members : List (String × Value)) : Option AuditEvent := do
  let raw ← ofMembers members
  let timestamp ← platform.canonicalTimestamp raw.timestamp
  let sourceRefs ← raw.sourceRefs.mapM platform.validateDurableReference
  let event := { raw with timestamp, sourceRefs }
  require (event.contentValid platform)
  require (isRevision event.eventHash && event.eventHash == event.expectedEventHash platform)
  return event

structure AuditEvent.Valid (platform : Platform) (event : AuditEvent) : Prop where
  actor : Actor.ofValue event.actor.data = some event.actor
  timestamp : platform.canonicalTimestamp event.timestamp = some event.timestamp
  sourceRefs : ∀ ref ∈ event.sourceRefs, platform.validateDurableReference ref = some ref
  content : event.contentValid platform = true
  eventHash : event.eventHash = event.expectedEventHash platform

/-! An object that an event was written to is read back as that event. -/

theorem AuditOperation.ofValue_data (operation : AuditOperation) : ofValue operation.data = some operation := by
  cases operation <;> rfl

theorem AuditAction.ofText_text (action : AuditAction) : ofText action.text = some action := by
  cases action <;> rfl

theorem AuditResult.ofText_text (result : AuditResult) : ofText result.text = some result := by
  cases result <;> rfl

theorem mapM_some {α β : Type} {items : List α} {read : α → Option β} {write : α → β}
    (each : ∀ item ∈ items, read item = some (write item)) : items.mapM read = some (items.map write) := by
  induction items with
  | nil => rfl
  | cons item rest ih =>
    rw [List.mapM_cons, each item List.mem_cons_self,
      ih fun other member => each other (List.mem_cons_of_mem _ member)]
    rfl

theorem mapM_eq_self {α : Type} {items : List α} {read : α → Option α} :
    items.mapM read = some items ↔ ∀ item ∈ items, read item = some item := by
  constructor
  · intro same
    induction items with
    | nil => simp
    | cons item rest ih =>
      rw [List.mapM_cons] at same
      simp only [Option.bind_eq_bind, Option.bind_eq_some_iff, Option.pure_def, Option.some.injEq,
        List.cons.injEq] at same
      obtain ⟨first, readFirst, others, readOthers, rfl, rfl⟩ := same
      intro other member
      rcases List.mem_cons.mp member with rfl | member
      · exact readFirst
      · exact ih readOthers other member
  · intro each
    have mapped : items.mapM read = some (items.map id) := mapM_some each
    rw [mapped, List.map_id]

theorem textsOf_strings (texts : List String) : textsOf (.array (texts.map .string)) = some texts := by
  rw [textsOf, asArray, Option.bind_some, List.mapM_map]
  exact mapM_eq_self.mpr fun text _ => rfl

theorem operations_ofValue (operations : List AuditOperation) :
    operations.mapM (AuditOperation.ofValue ∘ AuditOperation.data) = some operations :=
  mapM_eq_self.mpr fun operation _ => operation.ofValue_data

theorem AuditEvent.ofMembers_members (event : AuditEvent) :
    ofMembers event.members = (Actor.ofValue event.actor.data).map fun actor => { event with actor } := by
  by_cases none : event.acknowledgedPaths = []
  · simp only [ofMembers, members, acknowledgedMember, none, if_true]
    cases read : Actor.ofValue event.actor.data <;>
      simp [onlyKeys, eventKeys, require, field, textField, asText, asArray, isSchemaVersionOne, read,
        AuditAction.ofText_text, AuditResult.ofText_text, textsOf_strings, operations_ofValue]
  · simp only [ofMembers, members, acknowledgedMember, none, if_false]
    cases read : Actor.ofValue event.actor.data <;>
      simp [onlyKeys, eventKeys, require, field, textField, asText, asArray, isSchemaVersionOne, read,
        AuditAction.ofText_text, AuditResult.ofText_text, textsOf_strings, operations_ofValue]

theorem AuditEvent.valid_iff (platform : Platform) (event : AuditEvent) :
    event.Valid platform ∧ isRevision event.eventHash = true ↔
      modelValidate platform event.members = some event := by
  rw [modelValidate, ofMembers_members]
  constructor
  · rintro ⟨⟨actor, timestamp, sourceRefs, content, eventHash⟩, revision⟩
    have refs := mapM_eq_self.mpr sourceRefs
    simp [actor, timestamp, refs, content, revision, require, ← eventHash]
  · intro accepted
    cases actor : Actor.ofValue event.actor.data with
    | none => simp [actor] at accepted
    | some read =>
      simp only [actor, Option.map_some, Option.bind_eq_bind, Option.bind_some, Option.bind_eq_some_iff,
        Option.pure_def, Option.some.injEq, require] at accepted
      obtain ⟨timestamp, readTimestamp, refs, readRefs, _, content, _, hash, same⟩ := accepted
      obtain ⟨rfl, rfl, rfl⟩ : event.actor = read ∧ event.timestamp = timestamp ∧ event.sourceRefs = refs := by
        rw [← same]
        exact ⟨rfl, rfl, rfl⟩
      simp only [Option.ite_none_right_eq_some, and_true, Bool.and_eq_true, beq_iff_eq] at content hash
      exact ⟨⟨actor, readTimestamp, mapM_eq_self.mp readRefs, content, hash.2⟩, hash.1⟩

theorem AuditEvent.Valid.revision {platform : Platform} {event : AuditEvent} (valid : event.Valid platform) :
    isRevision event.eventHash = true := by
  rw [valid.eventHash, expectedEventHash]
  exact platform.hexDigest _

theorem AuditEvent.modelValidate_members {platform : Platform} {event : AuditEvent} (valid : event.Valid platform) :
    modelValidate platform event.members = some event := (valid_iff platform event).mp ⟨valid, valid.revision⟩

end Workctx.Domain
