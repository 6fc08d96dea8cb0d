import Workctx.Domain.Audit

/-! The write-ahead intent record: its fields, its JSON file, and the reader that accepts
exactly the records the writer can produce. -/

namespace Workctx.Staging
open Workctx.Json Workctx.Text Workctx.Domain

inductive IntentTargetKind where
  | replace
  | move
  | delete
deriving DecidableEq

/-- One ordered postimage and its rollback preimage. -/
structure IntentTarget where
  target : String
  staged : Option String
  contentHash : Option String
  backup : Option String
  preimageHash : Option String
  kind : IntentTargetKind
  destination : Option String
deriving DecidableEq

structure IntentRecord where
  transactionId : String
  nonce : String
  targets : List IntentTarget
deriving DecidableEq

/-- `_NONCE` -/
def isNonce (text : String) : Bool := text.toList.length == 32 && text.toList.all isLowerHex

/-- `_TRANSACTION_DIRECTORY` -/
def isTransactionDirectory (text : String) : Bool :=
  ['t', 'x', 'n', '-'].isPrefixOf text.toList && (text.toList.drop 4).length == 24 &&
    (text.toList.drop 4).all isLowerHex

def filled : Option String → Bool
  | none => true
  | some text => text != ""

def hashed : Option String → Bool
  | none => true
  | some text => isContentHash text

/-- `_validate_intent_target_fields` -/
def IntentTarget.fieldsValid (item : IntentTarget) : Bool :=
  item.target != "" && hashed item.contentHash && hashed item.preimageHash && filled item.backup && filled item.staged &&
    filled item.destination && (item.backup.isNone == item.preimageHash.isNone) &&
    match item.kind with
    | .replace => item.staged.isSome && item.contentHash.isSome && item.destination.isNone
    | .move => item.preimageHash.isSome && item.staged.isNone && item.destination.isSome &&
        item.contentHash == item.preimageHash
    | .delete => item.preimageHash.isSome && item.staged.isNone && item.destination.isNone && item.contentHash.isNone

def IntentRecord.fieldsValid (record : IntentRecord) : Bool :=
  record.transactionId != "" && isNonce record.nonce && !record.targets.isEmpty &&
    record.targets.all IntentTarget.fieldsValid

/-! Writing. -/

def optionalText : Option String → Value
  | none => .null
  | some text => .string text

def IntentTargetKind.text : IntentTargetKind → String
  | .replace => "replace"
  | .move => "move"
  | .delete => "delete"

/-- The legacy object of a replacement has no kind; the other kinds extend it. -/
def IntentTarget.toDict (item : IntentTarget) : Value :=
  .object ([("target", .string item.target), ("staged", optionalText item.staged),
      ("content_hash", optionalText item.contentHash), ("backup", optionalText item.backup),
      ("preimage_hash", optionalText item.preimageHash)] ++
    if item.kind = .replace then []
    else [("kind", .string item.kind.text), ("destination", optionalText item.destination)])

def IntentRecord.toDict (record : IntentRecord) : Value :=
  .object [("schema_version", .int 1), ("transaction_id", .string record.transactionId),
    ("nonce", .string record.nonce), ("targets", .array (record.targets.map IntentTarget.toDict))]

def encodeIntent (record : IntentRecord) : Bytes := encodeUtf8 (dumpsIndented record.toDict ++ ['\n'])

/-! Reading. -/

def exactKeys (members : List (String × Value)) (keys : List String) : Bool :=
  onlyKeys members keys && keys.all fun key => (field members key).isSome

def optionalField (members : List (String × Value)) (key : String) : Option (Option String) :=
  (field members key).bind fun value => match value with
    | .null => some none
    | .string text => some (some text)
    | _ => none

/-- A replacement must use the legacy shape, so its name is no kind here. -/
def IntentTargetKind.ofText (text : String) : Option IntentTargetKind :=
  if text = "move" then some .move else if text = "delete" then some .delete else none

def legacyKeys : List String := ["target", "staged", "content_hash", "backup", "preimage_hash"]

def IntentTarget.fromDict (value : Value) : Option IntentTarget := do
  let members ← asMembers value
  require (exactKeys members legacyKeys || exactKeys members (legacyKeys ++ ["kind", "destination"]))
  let target ← textField members "target"
  let staged ← optionalField members "staged"
  let contentHash ← optionalField members "content_hash"
  let backup ← optionalField members "backup"
  let preimageHash ← optionalField members "preimage_hash"
  let (kind, destination) ← match field members "kind" with
    | none => some (.replace, none)
    | some kind => (asText kind).bind fun text => (IntentTargetKind.ofText text).bind fun kind =>
        (optionalField members "destination").map fun destination => (kind, destination)
  let item := { target, staged, contentHash, backup, preimageHash, kind, destination }
  require item.fieldsValid
  return item

def IntentRecord.fromDict (value : Value) : Option IntentRecord := do
  let members ← asMembers value
  require (exactKeys members ["schema_version", "transaction_id", "nonce", "targets"])
  require (isSchemaVersionOne (← field members "schema_version"))
  let transactionId ← textField members "transaction_id"
  let nonce ← textField members "nonce"
  let targets ← (← asArray (← field members "targets")).mapM IntentTarget.fromDict
  let record := { transactionId, nonce, targets }
  require record.fieldsValid
  return record

/-- The bytes of `intent.json` as a record; none where the intent is malformed. -/
def decodeIntent (bytes : Bytes) : Option IntentRecord :=
  ((decodeUtf8 bytes).bind loadsDistinct).bind IntentRecord.fromDict

/-! The round trip. -/

theorem IntentTarget.fromDict_toDict {item : IntentTarget} (valid : item.fieldsValid = true) :
    fromDict item.toDict = some item := by
  obtain ⟨target, staged, contentHash, backup, preimageHash, kind, destination⟩ := item
  have optional : ∀ text : Option String, (match optionalText text with
      | .null => some none
      | .string text => some (some text)
      | _ => none) = some text := fun text => by cases text <;> rfl
  cases kind with
  | replace =>
    obtain rfl : destination = none := by
      simp only [fieldsValid, Bool.and_eq_true, Option.isNone_iff_eq_none] at valid
      exact valid.2.2
    simp [fromDict, toDict, asMembers, require, exactKeys, onlyKeys, legacyKeys, field, textField, optionalField, asText,
      optional, valid]
  | move =>
    simp [fromDict, toDict, asMembers, require, exactKeys, onlyKeys, legacyKeys, field, textField, optionalField, asText,
      optional, valid, IntentTargetKind.text, IntentTargetKind.ofText]
  | delete =>
    simp [fromDict, toDict, asMembers, require, exactKeys, onlyKeys, legacyKeys, field, textField, optionalField, asText,
      optional, valid, IntentTargetKind.text, IntentTargetKind.ofText]

theorem IntentRecord.fromDict_toDict {record : IntentRecord} (valid : record.fieldsValid = true) :
    fromDict record.toDict = some record := by
  have targets : (record.targets.map IntentTarget.toDict).mapM IntentTarget.fromDict = some record.targets := by
    rw [List.mapM_map]
    refine mapM_eq_self.mpr fun item member => IntentTarget.fromDict_toDict ?_
    simp only [fieldsValid, Bool.and_eq_true] at valid
    exact List.all_eq_true.mp valid.2 item member
  simp [fromDict, toDict, asMembers, require, exactKeys, onlyKeys, field, textField, asText, asArray,
    isSchemaVersionOne, targets, valid]

theorem optionalText_exact (text : Option String) : (optionalText text).Exact := by
  cases text <;> trivial

theorem target_exact (item : IntentTarget) : item.toDict.Exact := by
  by_cases legacy : item.kind = .replace <;>
    simp [IntentTarget.toDict, legacy, Value.Exact, MembersExact, optionalText_exact]

theorem record_exact (record : IntentRecord) : record.toDict.Exact := by
  have targets : ElementsExact (record.targets.map IntentTarget.toDict) := by
    rw [elementsExact_iff]
    intro item member
    obtain ⟨target, _, rfl⟩ := List.mem_map.mp member
    exact target_exact target
  simp [IntentRecord.toDict, Value.Exact, MembersExact, targets]

theorem optionalText_noDuplicateObjectKeys (text : Option String) :
    (optionalText text).noDuplicateObjectKeys = true := by
  cases text <;> rfl

theorem target_noDuplicateObjectKeys (item : IntentTarget) : item.toDict.noDuplicateObjectKeys = true := by
  by_cases legacy : item.kind = .replace <;>
    simp [IntentTarget.toDict, legacy, Value.noDuplicateObjectKeys, membersNoDuplicateObjectKeys,
      optionalText_noDuplicateObjectKeys]

theorem record_noDuplicateObjectKeys (record : IntentRecord) : record.toDict.noDuplicateObjectKeys = true := by
  have targets := elementsNoDuplicateObjectKeys_map record.targets target_noDuplicateObjectKeys
  simp [IntentRecord.toDict, Value.noDuplicateObjectKeys, membersNoDuplicateObjectKeys, targets]

theorem decodeIntent_encodeIntent {record : IntentRecord} (valid : record.fieldsValid = true) :
    decodeIntent (encodeIntent record) = some record := by
  have read : loads (dumpsIndented record.toDict ++ ['\n']) = some record.toDict :=
    loads_print (indented_blank 2) (record_exact record) (by simp [isWhitespace])
  rw [decodeIntent, encodeIntent, decodeUtf8_encodeUtf8, Option.bind_some, loadsDistinct, read, Option.bind_some,
    if_pos (record_noDuplicateObjectKeys record), Option.bind_some, IntentRecord.fromDict_toDict valid]

/-- The file that only reserves the name of the intent holds no record. -/
theorem decodeIntent_nil : decodeIntent [] = none := by
  have text : decodeUtf8 [] = some [] := decodeUtf8_encodeUtf8 []
  rw [decodeIntent, text]
  rfl

end Workctx.Staging
