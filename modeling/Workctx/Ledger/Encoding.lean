import Workctx.Ledger.Verify
import Workctx.Serialization.Canonical

/-! The ledger's encoder, through the serializer of documents, beside the event's own. -/

namespace Workctx.Serialization
open Workctx.Json Workctx.Text

/-- `dump_json_bytes` of a model; none where it raises `TypeError`. -/
def dumpJsonBytes (model : ModelInstance) : Option Bytes :=
  (canonicalModelData model).map fun data => encodeUtf8 (dumpsIndented data ++ ['\n'])

end Workctx.Serialization

namespace Workctx.Ledger.Encoding
open Workctx.Json Workctx.Text Workctx.Domain Workctx.Serialization

/-! An event as the serializer finds it: the declared fields in their order, and `model_dump` of it. -/

def nativeFields (names : List String) : List (Option String × Object) := names.map fun name => (some name, .native)

def textsObject (texts : List String) : Object := .list (texts.map fun _ => .native)

def operationObject : AuditOperation → Object
  | .create _ _ => .model (nativeFields ["op", "target", "postimage_hash"]) [] []
  | .update _ _ _ => .model (nativeFields ["op", "target", "preimage_hash", "postimage_hash"]) [] []
  | .move _ _ _ => .model (nativeFields ["op", "source", "destination", "content_hash"]) [] []
  | .deleteGenerated _ _ => .model (nativeFields ["op", "target", "preimage_hash"]) [] []

/-- The three classes declare the same four fields. -/
def actorObject : Object := .model (nativeFields ["type", "id", "agent", "model"]) [] []

def eventFields (event : AuditEvent) : List (Option String × Object) :=
  nativeFields ["schema_version", "id", "proposal_id", "context_id"] ++ [(some "timestamp", .other), (some "actor", actorObject)] ++
  nativeFields ["action", "result", "base_revision"] ++
  [(some "source_refs", textsObject event.sourceRefs), (some "acknowledged_paths", textsObject event.acknowledgedPaths),
    (some "operations", .list (event.operations.map operationObject))] ++
  nativeFields ["prev_hash", "event_hash"]

def eventInstance (event : AuditEvent) : ModelInstance := ⟨eventFields event, [], [], event.data⟩

/-! The functions of the ledger module; none where they raise `LedgerIntegrityError`. -/

/-- `_canonical_event_bytes` -/
def canonicalEventBytes (event : AuditEvent) : Option Bytes := do
  let dumped ← dumpJsonBytes (eventInstance event)
  let data ← loads (← decodeUtf8 dumped)
  return encodeUtf8 (dumpsCompact data)

def computeEventHash (platform : Platform) (event : AuditEvent) : Option String :=
  (canonicalEventBytes { event with eventHash := "" }).map platform.sha256Hex

def encodeEventLine (event : AuditEvent) : Option Bytes := (canonicalEventBytes event).map fun bytes => bytes ++ [linefeed]

/-! The serializer keeps an event as it dumps itself. -/

theorem normalize_text (source : Option Object) (text : String) : normalizeSerialized source (.string text) = .string text := by
  rw [normalizeSerialized]

theorem normalize_texts (texts : List String) :
    normalizeSerialized (some (textsObject texts)) (.array (texts.map .string)) = .array (texts.map .string) := by
  rw [textsObject, normalizeSerialized, itemSources, normalizeItems_map fun text _ => normalize_text _ text]

theorem nativeFields_names (names : List String) : (nativeFields names).filterMap Prod.fst = names := by
  unfold nativeFields
  rw [List.filterMap_map]
  exact List.filterMap_some

theorem normalize_natives {names : List String} {members : List (String × Value)} (distinct : names.Nodup)
    (fields : members.map Prod.fst = names) (plain : ∀ entry ∈ members, ∀ source, normalizeSerialized source entry.2 = entry.2) :
    normalizeSerialized (some (.model (nativeFields names) [] [])) (.object members) = .object members := by
  apply normalizeSerialized_model
  · rw [nativeFields_names]
    exact distinct
  · rw [nativeFields_names, fields]
  · exact fun entry member => plain entry member _

theorem normalize_operation (operation : AuditOperation) :
    normalizeSerialized (some (operationObject operation)) operation.data = operation.data := by
  cases operation <;> exact normalize_natives (by decide) rfl (by simp [normalizeSerialized])

theorem normalize_actor (actor : Actor) : normalizeSerialized (some actorObject) actor.data = actor.data := by
  cases actor <;> exact normalize_natives (by decide) rfl (by simp [normalizeSerialized])

theorem normalize_operations (operations : List AuditOperation) :
    normalizeSerialized (some (.list (operations.map operationObject))) (.array (operations.map AuditOperation.data)) =
      .array (operations.map AuditOperation.data) := by
  rw [normalizeSerialized, itemSources, normalizeItems_map fun operation _ => normalize_operation operation]

theorem eventFields_names (event : AuditEvent) : (eventFields event).filterMap Prod.fst = eventKeys := rfl

/-- An event without acknowledged paths leaves out that field alone. -/
theorem members_sublist (event : AuditEvent) : (event.members.map Prod.fst).Sublist eventKeys := by
  unfold AuditEvent.members acknowledgedMember eventKeys
  split <;> simp

theorem normalize_event (event : AuditEvent) : normalizeSerialized (some (eventInstance event).object) event.data = event.data := by
  apply normalizeSerialized_model
  · rw [eventInstance, eventFields_names]
    decide
  · rw [eventInstance, eventFields_names]
    exact members_sublist event
  · intro entry member
    have acknowledged : entry ∈ acknowledgedMember event.acknowledgedPaths →
        entry = ("acknowledged_paths", .array (event.acknowledgedPaths.map .string)) := by
      unfold acknowledgedMember
      split <;> simp
    simp only [AuditEvent.members, List.mem_append, List.mem_cons, List.not_mem_nil, or_false] at member
    rcases member with ((rfl | rfl | rfl | rfl | rfl | rfl | rfl | rfl | rfl | rfl) | member) | (rfl | rfl | rfl)
    case inl.inr =>
      rw [acknowledged member]
      exact normalize_texts event.acknowledgedPaths
    all_goals first
      | exact normalize_text _ _
      | exact normalize_actor event.actor
      | exact normalize_texts event.sourceRefs
      | exact normalize_operations event.operations
      | rw [normalizeSerialized]

theorem preflightItems_map {α : Type} {object : α → Object} (items : List α) (each : ∀ item, preflightDeclared (object item) = true) :
    preflightItems (items.map object) = true := by
  induction items with
  | nil => rw [List.map_nil, preflightItems]
  | cons item rest ih => rw [List.map_cons, preflightItems, each item, ih, Bool.and_true]

theorem preflight_operation (operation : AuditOperation) : preflightDeclared (operationObject operation) = true := by
  cases operation <;> rfl

theorem preflight_texts (texts : List String) : preflightDeclared (textsObject texts) = true := by
  rw [textsObject, preflightDeclared, preflightItems_map texts fun _ => by rw [preflightDeclared]]

theorem preflight_event (event : AuditEvent) : preflightDeclared (eventInstance event).object = true := by
  have operations := preflightItems_map event.operations preflight_operation
  simp [eventInstance, ModelInstance.object, eventFields, nativeFields, actorObject, preflightDeclared, preflightEntries,
    preflightFreeEntries, stringKeys, preflight_texts, operations]

theorem canonicalModelData_event (event : AuditEvent) : canonicalModelData (eventInstance event) = some event.data := by
  have dumped : (eventInstance event).serialized = event.data := rfl
  unfold canonicalModelData
  rw [dumped, normalize_event, preflight_event]
  rfl

theorem canonicalEventBytes_eq (event : AuditEvent) : canonicalEventBytes event = Ledger.canonicalEventBytes event := by
  unfold canonicalEventBytes dumpJsonBytes
  rw [canonicalModelData_event]
  simp only [Option.map_some, Option.bind_eq_bind, Option.bind_some, decodeUtf8_encodeUtf8]
  exact Option.map_eq_bind.symm

/-- The two encoders agree on every event, in its hash and in its line. -/
theorem encoders_agree (platform : Platform) (event : AuditEvent) :
    computeEventHash platform event = some (event.expectedEventHash platform) ∧
    encodeEventLine event = some event.canonicalLineBytes := by
  constructor
  · rw [computeEventHash, canonicalEventBytes_eq]
    exact computeEventHash_eq platform event
  · rw [encodeEventLine, canonicalEventBytes_eq]
    exact encodeEventLine_eq event

end Workctx.Ledger.Encoding
