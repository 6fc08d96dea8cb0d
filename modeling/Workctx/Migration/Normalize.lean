import Workctx.Migration.References
import Workctx.Validation.ClaimRules

/-! The normalization of the planned documents: the observations of their mutable fields, and the claims that are made of
them. -/

namespace Workctx.Migration
open Workctx.Concurrent Workctx.Domain Workctx.Topics Workctx.Validation

def mutableFieldOrder : List String :=
  ["status", "owner", "ownership", "deadline", "due", "due_at", "waiting_on", "next_action", "dependencies", "blockers",
    "architecture"]

/-- `_Timestamps`, in microseconds. -/
structure Timestamps where
  createdAt : Int
  updatedAt : Int

/-- An observation of a line of the legacy source. -/
structure MigratedObservation where
  id : String
  statement : String
  sourceRef : String
  span : Nat × Nat
  observedAt : Int

/-- The document of a created file: a migrated document, the evidence of a provenance, or a claim, with the mutable field
it is generated from. -/
inductive Payload (document : Type) where
  | document (content : document)
  | provenance (evidenceId : String) (observations : List MigratedObservation)
  | claim (claim : Claim) (body : String) (field : Option String)

structure CreateOperation (document : Type) where
  target : String
  payload : Payload document

/-- The migrated documents themselves, of which no claim is made: `_entity`, `_task` and `_normalize_standalone_observation`. -/
structure Documents (document : Type) where
  entity : PlannedDocument → List MigratedObservation → Timestamps → Except NormalizeError document
  task : PlannedDocument → List MigratedObservation → Timestamps → Except NormalizeError document
  observation : PlannedDocument → Except NormalizeError document
  /-- `_rewrite_body` -/
  rewriteBody : String → LegacyDocument → Except NormalizeError String

section
variable (standard : Standard)

/-! Times. -/

/-- The instant of a date-time is between `datetime.min` and `datetime.max`; without an offset it is taken for UTC. -/
def inRange (value : Datetime) : Bool :=
  let instant := value.clock - value.utcoffset.getD 0
  decide (earliest ≤ instant) && decide (instant ≤ latest)

/-- `astimezone(UTC).replace(microsecond=0)` -/
def inUtc (value : Datetime) : Except NormalizeError Int :=
  if inRange value then .ok ((value.clock - value.utcoffset.getD 0) / 1000000 * 1000000) else .error .overflow

/-- `text.replace("Z", "+00:00")` -/
def withOffset (text : List Char) : String := String.ofList (text.flatMap fun c => if c == 'Z' then "+00:00".toList else [c])

def parseTimestamp : Yaml → Except NormalizeError (Option Int)
  | .datetime value => do
    let instant ← inUtc value
    .ok (some instant)
  | .date midnight => do
    let instant ← inUtc ⟨midnight, none⟩
    .ok (some instant)
  | .string value =>
    let text := strip value.toList
    if text.isEmpty then .ok none
    else
      match (standard.fromIsoFormat (withOffset text)).or ((standard.dateFromIsoFormat (String.ofList text)).map fun midnight => ⟨midnight, none⟩) with
      | none => .ok none
      | some parsed => do
        let instant ← inUtc parsed
        .ok (some instant)
  | _ => .ok none

/-- `frontmatter.get(key, frontmatter.get(other))` -/
def getEither (source : LegacyDocument) (key other : String) : Yaml :=
  ((source.frontmatter.get key).or (source.frontmatter.get other)).getD .null

/-- `_timestamps` -/
def timestampsOf (time : MigrationTime) (source : LegacyDocument) : Except NormalizeError Timestamps := do
  let created ← parseTimestamp standard (getEither source "created_at" "created")
  let createdAt := created.getD time.instant
  let updated ← parseTimestamp standard (getEither source "updated_at" "updated")
  .ok ⟨createdAt, updated.getD createdAt⟩

def optionalTimestamp (value : Option Yaml) : Except NormalizeError (Option Int) :=
  match value with
  | none => .ok none
  | some .null => .ok none
  | some (.string "") => .ok none
  | some value => parseTimestamp standard value

/-! Values. -/

/-- `str` of a value, for the fields that are vocabularies. -/
def vocabularyText (value : Option Yaml) : String :=
  match value with
  | some (.string text) => standard.library.unicode.casefold text
  | _ => ""

/-- `_confidence` -/
def confidenceOf (value : Option Yaml) : String :=
  if ["low", "medium", "high"].contains (vocabularyText standard value) then vocabularyText standard value else "medium"

/-- `_claim_status` -/
def claimStatusOf (value : Option Yaml) : ClaimStatus := (ClaimStatus.parse (vocabularyText standard value)).getD .uncertain

mutual
def jsonValue : Yaml → Except NormalizeError Json.Value
  | .null => .ok .null
  | .bool value => .ok (.bool value)
  | .int value => .ok (.int value)
  | .float lexeme => .ok (.float lexeme)
  | .string value => .ok (.string (replaceAbsolutePaths standard value))
  | .datetime value =>
    if inRange value then .ok (.string (standard.utcText (value.clock - value.utcoffset.getD 0))) else .error .overflow
  | .date midnight => .ok (.string (standard.dateText midnight))
  | .list items => do
    let values ← jsonValues items
    .ok (.array values)
  | .dict members => do
    let values ← jsonMembers members
    .ok (.object values)
  | .other text => .ok (.string (replaceAbsolutePaths standard text))

def jsonValues : List Yaml → Except NormalizeError (List Json.Value)
  | [] => .ok []
  | item :: rest => do
    let value ← jsonValue item
    let others ← jsonValues rest
    .ok (value :: others)

def jsonMembers : List (Yaml × Yaml) → Except NormalizeError (List (String × Json.Value))
  | [] => .ok []
  | (key, value) :: rest =>
    match key with
    | .string name => do
      let value ← jsonValue value
      let others ← jsonMembers rest
      .ok ((name, value) :: others)
    | _ => jsonMembers rest
end

section
variable (plan : MigrationPlan)

def predicateOf (field : String) : String :=
  (([("deadline", "due"), ("due_at", "due"), ("ownership", "owner")] : List (String × String)).lookup field).getD field

def mapReferences (source : LegacyDocument) : List Yaml → Except NormalizeError (List Json.Value)
  | [] => .ok []
  | item :: rest => do
    let mapped ← mapReference standard plan item source
    let others ← mapReferences source rest
    .ok (.string mapped :: others)

def mutableValue (source : LegacyDocument) (field : String) (authored : Yaml) : Except NormalizeError Json.Value :=
  if ["dependencies", "blockers"].contains field then do
    let mapped ← mapReferences standard plan source (match authored with
      | .list items => items
      | value => [value])
    .ok (.array mapped)
  else jsonValue standard authored

def mutableValues (source : LegacyDocument) : List String → Except NormalizeError (List (String × String × Json.Value))
  | [] => .ok []
  | field :: rest =>
    match source.frontmatter.get field with
    | none => mutableValues source rest
    | some authored => do
      let value ← mutableValue standard plan source field authored
      let others ← mutableValues source rest
      .ok ((field, predicateOf field, value) :: others)

/-! Provenance. -/

def statementPrefix : List Char := "The legacy source records mutable field '".toList
def statementSuffix : List Char := "'.".toList

def statementOf (field : String) : String := String.ofList (statementPrefix ++ field.toList ++ statementSuffix)

/-- `removeprefix` and `removesuffix` of a statement -/
def fieldOf (statement : String) : String :=
  let text := statement.toList
  let rest := if statementPrefix.isPrefixOf text then text.drop statementPrefix.length else text
  String.ofList (if statementSuffix.isSuffixOf rest then rest.take (rest.length - statementSuffix.length) else rest)

def observeFields (source : LegacyDocument) (evidenceId reference : String) (observedAt : Int) :
    Nat → List String → Except NormalizeError (List MigratedObservation)
  | _, [] => .ok []
  | count, field :: rest =>
    match source.frontmatterSpans.get field with
    | none => observeFields source evidenceId reference observedAt count rest
    | some span => do
      let id := evidenceId ++ "#OBS-" ++ padded 3 (count + 1)
      if !(isObservationId id && decide (1 ≤ span.1) && decide (span.1 ≤ span.2)) then
        .error (.failed ("Legacy document normalization failed at " ++ source.reportPath ++ "."))
      else do
        let others ← observeFields source evidenceId reference observedAt (count + 1) rest
        .ok (⟨id, statementOf field, reference, span, observedAt⟩ :: others)

def provenanceObservations {document : Type} (planned : PlannedDocument) (fields : List String) (observedAt : Int) :
    Except NormalizeError (List MigratedObservation × Option (CreateOperation document)) :=
  match if planned.source.entityType == "evidence" then some planned.targetId else planned.provenanceEvidenceId with
  | none => .ok ([], none)
  | some evidenceId => do
    let artifact ← ((plan.artifactBySource planned.source.relativePath).elim (.error (.keyError planned.source.relativePath)) .ok :
      Except NormalizeError ArtifactPlan)
    let observations ← observeFields planned.source evidenceId artifact.reference observedAt 0 fields
    if planned.source.entityType == "evidence" || observations.isEmpty then .ok (observations, none)
    else .ok (observations, some ⟨"02_knowledge/evidence/" ++ evidenceId ++ ".md", .provenance evidenceId observations⟩)

/-! Claims. -/

structure ClaimAllocator where
  used : List String
  sequence : Nat

def claimId (time : MigrationTime) (number : Nat) : String := "CLM-" ++ padded 4 time.year ++ "-" ++ padded 5 number

def ClaimAllocator.allocate (time : MigrationTime) (allocator : ClaimAllocator) : Except NormalizeError (String × ClaimAllocator) :=
  match Allocator.nextFree allocator.used (claimId time) (99999 - allocator.sequence) allocator.sequence with
  | none => .error (.exhausted "The claim ID sequence is exhausted for the migration year.")
  | some next => .ok (claimId time next, ⟨claimId time next :: allocator.used, next⟩)

def observationUri (observation : MigratedObservation) : String := uriText ⟨plan.contextId, "observation", observation.id⟩

def inUtcTime (instant : Int) : AwareDatetime := ⟨instant, 0⟩

def mutableClaim (planned : PlannedDocument) (id predicate : String) (value : Json.Value) (observation : MigratedObservation)
    (observedAt : Int) : Claim :=
  { id
    subject := planned.targetUri
    predicate
    object := value
    observedAt := inUtcTime observedAt
    validFrom := some (inUtcTime observedAt)
    validTo := none
    status := .current
    supersedes := none
    supersededBy := none
    confidence := confidenceOf standard (planned.source.frontmatter.get "confidence")
    sourceObservations := [observationUri plan observation] }

/-- `model_validate` within `_normalize_document` -/
def validated {α : Type} (source : LegacyDocument) (result : Except String α) : Except NormalizeError α :=
  result.mapError fun _ => .failed ("Legacy document normalization failed at " ++ source.reportPath ++ ".")

def generateMutableClaims {document : Type} (time : MigrationTime) (planned : PlannedDocument)
    (observations : List MigratedObservation) (observedAt : Int) :
    List (String × String × Json.Value) → ClaimAllocator → Except NormalizeError (List (CreateOperation document) × ClaimAllocator)
  | [], allocator => .ok ([], allocator)
  | (field, predicate, value) :: rest, allocator =>
    match observations.reverse.find? fun observation => fieldOf observation.statement == field with
    | none => generateMutableClaims time planned observations observedAt rest allocator
    | some observation => do
      let (id, reserved) ← allocator.allocate time
      let claim ← validated planned.source
        ((mutableClaim standard plan planned id predicate value observation observedAt).modelValidate standard.library)
      let (others, later) ← generateMutableClaims time planned observations observedAt rest reserved
      .ok (⟨"02_knowledge/claims/" ++ id ++ ".md", .claim claim ("Migrated mutable field `" ++ predicate ++
        "` from legacy source `" ++ planned.source.reportPath ++ "`.\n") (some field)⟩ :: others, later)

def mappedClaimId (value : Option Yaml) : Option String :=
  match value.bind Yaml.text with
  | none => none
  | some id => ((plan.documentByOldId standard id).filter fun planned => planned.source.entityType == "claim").map PlannedDocument.targetId

def normalizeLegacyClaim {document : Type} (documents : Documents document) (planned : PlannedDocument)
    (observations : List MigratedObservation) (timestamps : Timestamps) : Except NormalizeError (CreateOperation document) := do
  let source := planned.source
  if observations.isEmpty then
    .error (.failed ("Legacy claim at " ++ source.reportPath ++ " has no recoverable source locator."))
  else do
    let subject ← mapReference standard plan ((source.frontmatter.get "subject").getD .null) source
    if !"workctx://".toList.isPrefixOf subject.toList then
      .error (.failed ("Legacy claim subject did not resolve at " ++ source.reportPath ++ "."))
    else
      match (((source.frontmatter.get "predicate").bind Yaml.text).map fun text => String.ofList (strip text.toList)).filter (· != "") with
      | none => .error (.failed ("Legacy claim predicate is missing at " ++ source.reportPath ++ "."))
      | some predicate => do
        let object ← jsonValue standard ((source.frontmatter.get "object").getD .null)
        let validFrom ← optionalTimestamp standard (source.frontmatter.get "valid_from")
        let validTo ← optionalTimestamp standard (source.frontmatter.get "valid_to")
        let claim ← validated source (Claim.modelValidate standard.library
          { id := planned.targetId
            subject
            predicate
            object
            observedAt := inUtcTime timestamps.updatedAt
            validFrom := validFrom.map inUtcTime
            validTo := validTo.map inUtcTime
            status := claimStatusOf standard (source.frontmatter.get "status")
            supersedes := mappedClaimId standard plan (source.frontmatter.get "supersedes")
            supersededBy := mappedClaimId standard plan (source.frontmatter.get "superseded_by")
            confidence := confidenceOf standard (source.frontmatter.get "confidence")
            sourceObservations := observations.map (observationUri plan) })
        let body ← documents.rewriteBody source.body source
        .ok ⟨planned.targetPath, .claim claim body none⟩

/-! The migration. -/

def observedFields (source : LegacyDocument) : List String :=
  if source.entityType == "claim" then ["object"]
  else mutableFieldOrder.filter fun key => (source.frontmatter.get key).isSome

def Documents.made {document : Type} (documents : Documents document) (planned : PlannedDocument)
    (observations : List MigratedObservation) (timestamps : Timestamps) : Except NormalizeError document :=
  if planned.source.entityType == "task" then documents.task planned observations timestamps
  else documents.entity planned (if planned.source.entityType == "evidence" then observations else []) timestamps

def normalizeDocument {document : Type} (documents : Documents document) (time : MigrationTime) (planned : PlannedDocument)
    (allocator : ClaimAllocator) : Except NormalizeError (List (CreateOperation document) × ClaimAllocator) :=
  if planned.source.entityType == "observation" then do
    let content ← documents.observation planned
    .ok ([⟨planned.targetPath, .document content⟩], allocator)
  else do
    let timestamps ← timestampsOf standard time planned.source
    let (observations, evidence) ← provenanceObservations plan planned (observedFields planned.source) timestamps.updatedAt
    if planned.source.entityType == "claim" then do
      let operation ← normalizeLegacyClaim standard plan documents planned observations timestamps
      .ok (evidence.toList ++ [operation], allocator)
    else do
      let content ← documents.made planned observations timestamps
      let values ← mutableValues standard plan planned.source mutableFieldOrder
      let (claims, later) ← generateMutableClaims standard plan time planned observations timestamps.updatedAt values allocator
      .ok (evidence.toList ++ ⟨planned.targetPath, .document content⟩ :: claims, later)

def normalizeDocuments {document : Type} (documents : Documents document) (time : MigrationTime) :
    List PlannedDocument → ClaimAllocator → Except NormalizeError (List (CreateOperation document))
  | [], _ => .ok []
  | planned :: rest, allocator => do
    let (operations, later) ← normalizeDocument standard plan documents time planned allocator
    let others ← normalizeDocuments documents time rest later
    .ok (operations ++ others)

/-- The order of the documents: the tasks behind the others, and then by their paths. -/
def comesBefore (one two : PlannedDocument) : Bool :=
  let folded := fun planned : PlannedDocument => standard.library.unicode.casefold planned.source.relativePath
  let task := fun planned : PlannedDocument => planned.source.entityType == "task"
  (!task one && task two) || (task one == task two && decide (folded one ≤ folded two))

def normalizeMigration {document : Type} (documents : Documents document) (time : MigrationTime) :
    Except NormalizeError (List (CreateOperation document)) := do
  let used := (plan.documents.filter fun planned => planned.source.entityType == "claim").map PlannedDocument.targetId
  let operations ← normalizeDocuments standard plan documents time (plan.documents.mergeSort (comesBefore standard)) ⟨used, 0⟩
  if decide (operations.map fun operation => standard.library.unicode.casefold operation.target).Nodup then
    .ok (sortByPath standard.library.unicode CreateOperation.target operations)
  else .error .notUnique

end
end
end Workctx.Migration
