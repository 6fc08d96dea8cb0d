import Workctx.Owners.Lookup

/-! The documents of a workspace as its validator reads them, and the edges that it collects from their records. -/

namespace Workctx.Graph
open Workctx.Text Workctx.Concurrent Workctx.Domain Workctx.Migration Workctx.Owners

abbrev Files := Directory String Bytes

structure Workspace where
  files : Files
  apart : (files.map Prod.fst).Nodup

/-- `CanonicalEdge` -/
structure Edge where
  source : String
  relation : String
  target : String
deriving DecidableEq

def edgeOf (source : String) (reference : Reference) : Edge := ⟨source, reference.relation, reference.target⟩

/-! Kinds of documents. -/

inductive Kind where
  | task
  | claim
  | artifact
  | observation
  | entity
deriving DecidableEq

def startsWith (tag text : String) : Bool := tag.toList.isPrefixOf text.toList

def occursIn (tag text : String) : Bool := text.toList.tails.any fun rest => tag.toList.isPrefixOf rest

def typedKind (entityType : Yaml) : Kind :=
  if entityType.text = some "task" then .task
  else if entityType.text = some "claim" then .claim
  else if entityType.text = some "artifact" then .artifact
  else if entityType.text = some "observation" then .observation
  else .entity

def untypedKind (raw : Frontmatter) : Option Kind :=
  let id := (raw.get "id").bind Yaml.text
  if (raw.get "task_type").isSome || id.any (startsWith "TASK-") then some .task
  else if id.any (startsWith "CLM-") || (raw.get "subject").isSome && (raw.get "predicate").isSome then some .claim
  else if id.any (startsWith "ART-") || (raw.get "content_hash").isSome then some .artifact
  else if id.any (occursIn "#OBS-") || (raw.get "kind").isSome && (raw.get "statement").isSome && (raw.get "source").isSome then
    some .observation
  else none

def documentKind (raw : Frontmatter) : Option Kind :=
  match ((raw.get "entity_type").getD .null : Yaml) with
  | .null => untypedKind raw
  | value => some (typedKind value)

/-- `_document_kind_from_filename`, or an entity -/
def documentKindFromFilename (path : String) : Kind :=
  if startsWith "TASK-" (stem path) then .task
  else if startsWith "CLM-" (stem path) then .claim
  else if startsWith "ART-" (stem path) then .artifact
  else if occursIn "%23OBS-" (stem path) || occursIn "#OBS-" (stem path) then .observation
  else .entity

/-- `_ParsedDocument` -/
structure Document where
  path : String
  raw : Frontmatter
  kind : Kind

/-- What a document, or an observation within it, is validated as. -/
inductive Model where
  | entity (head : EntityHead) (references : List Reference)
  | task (head : EntityHead) (references : List Reference) (relations : List String)
  | claim (claim : ClaimHead)
  | artifact (id : String)
  | observation (observation : Observation)

/-! The validator. -/

/-- The members of `Claim`, and those of `Observation`; both models forbid others. -/
def claimMembers : List String :=
  ["schema_version", "id", "subject", "predicate", "object", "observed_at", "valid_from", "valid_to", "status", "supersedes",
    "superseded_by", "confidence", "source_observations"]

def observationMembers : List String :=
  ["id", "kind", "statement", "confidence", "source", "observed_at", "valid_from", "valid_to", "derived_from", "related"]

/-- `EntityType` -/
def entityTypes : List String :=
  ["evidence", "person", "team", "project", "system", "service", "module", "flow", "integration", "decision", "risk", "question",
    "task", "claim", "draft", "investigation", "incident", "observation", "artifact"]

/-- `WorkspaceValidator`, beside the projection of the same context. -/
structure Validator where
  projection : Projection
  /-- `str.casefold` -/
  casefold : List Char → List Char
  casefold_ascii : ∀ text, (∀ c ∈ text, c.toNat < 128) → casefold text = text.map Char.toLower
  /-- The mapping of a JSON or YAML file -/
  structured : String → Bytes → Option Frontmatter
  /-- `ArtifactManifest.model_validate` -/
  manifest : Frontmatter → Option String
  /-- `_entity_id_is_valid` -/
  entityIdIsValid : EntityHead → Bool
  /-- `_ReferencePayload.model_validate` -/
  referencePayload : Yaml → Option Reference
  /-- The errors of the other checks -/
  otherIssues : Files → List String
  /-- A typed reference is as the payload that is read from the same members. -/
  typedReference_payload : ∀ item typed payload, projection.models.typedReference item = some typed →
    referencePayload item = some payload → payload = typed
  typedReference_of_payload : ∀ item payload, referencePayload item = some payload → projection.models.durable payload.target = true →
    projection.models.typedReference item = some payload
  typedReference_durable : ∀ item typed, projection.models.typedReference item = some typed → projection.models.durable typed.target = true
  observation_durable : ∀ item observation, projection.models.observation item = some observation →
    ∀ reference ∈ observation.related, projection.models.durable reference.target = true
  standalone_durable : ∀ raw observation, projection.models.standaloneObservation raw = some observation →
    ∀ reference ∈ observation.related, projection.models.durable reference.target = true
  entity_references : ∀ raw head, projection.models.entity raw = some head →
    ∃ items, (raw.get "references").getD (.list []) = .list items ∧ ∀ item ∈ items, (referencePayload item).isSome = true
  task_references : ∀ raw head, projection.models.task raw = some head →
    ∃ items, (raw.get "references").getD (.list []) = .list items ∧ ∀ item ∈ items, (referencePayload item).isSome = true
  task_head : ∀ raw head, projection.models.task raw = some head → head.entityType = "task"
  claim_members : ∀ raw claim, projection.models.claim raw = some claim → ∀ key, (raw.get key).isSome = true → key ∈ claimMembers
  observation_members : ∀ raw observation, projection.models.standaloneObservation raw = some observation →
    ∀ key, (raw.get key).isSome = true → key ∈ observationMembers
  observation_own : ∀ raw observation, projection.models.standaloneObservation raw = some observation →
    (raw.get "id").bind Yaml.text = some observation.id
  claim_own : ∀ raw claim, projection.models.claim raw = some claim → (raw.get "id").bind Yaml.text = some claim.id
  entity_typed : ∀ raw head, projection.models.entity raw = some head → (raw.get "entity_type").bind Yaml.text = some head.entityType
  task_typed : ∀ raw head, projection.models.task raw = some head → (raw.get "entity_type").bind Yaml.text = some head.entityType
  /-- A URI has its scheme, and a canonical one of a known type is a durable reference. -/
  parseUri_scheme : ∀ value uri, projection.models.parseUri value = some uri → startsWith "workctx:" (String.ofList (lowered value.toList)) = true
  durable_workctx : ∀ value uri, projection.models.parseUri value = some uri → uriText uri = value → uri.entityType ∈ entityTypes →
    projection.models.durable value = true
  /-- A claim is about an entity, and is made from observations. -/
  claim_subject : ∀ raw claim, projection.models.claim raw = some claim → ∃ uri, projection.models.parseUri claim.subject = some uri
  claim_observations : ∀ raw claim, projection.models.claim raw = some claim → ∀ value ∈ claim.sourceObservations,
    ∃ uri, projection.models.parseUri value = some uri ∧ uri.entityType = "observation"
  manifest_members : ∀ raw id, manifest raw = some id → raw.get "entity_type" = none

namespace Validator
variable (validator : Validator)

def models : Models := validator.projection.models

def contextId : String := validator.projection.contextId

def durable : String → Bool := validator.models.durable

/-! Documents. -/

def isRead (path : String) : Bool :=
  let folded := (parts path).map validator.casefold
  (folded.all fun part => part != ".git".toList && part != "98_state".toList) &&
    !(["00_inbox".toList, "raw".toList].isPrefixOf folded || ["00_inbox".toList, "quarantine".toList].isPrefixOf folded ||
      ["01_processed".toList].isPrefixOf folded)

def isCanonicalZone (path : String) : Bool :=
  ["02_knowledge".toList, "03_work".toList, "05_outbox".toList].contains (validator.casefold ((parts path).headD []))

/-- `_is_manifest_path` -/
def isManifest (path : String) : Bool :=
  ["00_inbox".toList, "01_processed".toList].contains (validator.casefold ((parts path).headD [])) &&
    (parts path).any fun part => validator.casefold part == "manifests".toList

/-- The front matter of a text begins with its delimiter. -/
def opens (content : Bytes) : Bool :=
  (encodeUtf8 "---\n".toList).isPrefixOf content || (encodeUtf8 "---\r\n".toList).isPrefixOf content

def isValidated (path : String) (content : Bytes) : Bool :=
  validator.isRead path && (lowered (suffixOf path) == ".md".toList && validator.isCanonicalZone path && !isReadme path) &&
    opens content

/-- `_parse_markdown_document` and `_parse_structured_document`: the errors, and the document. -/
def parseDocument (path : String) (content : Bytes) : List String × Option Document :=
  if validator.isValidated path content then
    match validator.models.frontmatter content with
    | none => (["DOC-PARSE"], none)
    | some raw => ([], some ⟨path, raw, (documentKind raw).getD .entity⟩)
  else if validator.isRead path && ([".yaml".toList, ".yml".toList, ".json".toList].contains (lowered (suffixOf path)) &&
      (validator.isManifest path || validator.isCanonicalZone path)) then
    match validator.structured path content with
    | none => (["DOC-PARSE"], none)
    | some raw =>
      ([], some ⟨path, raw, if validator.isManifest path then .artifact else (documentKind raw).getD (documentKindFromFilename path)⟩)
  else ([], none)

def payloads (raw : Frontmatter) : List Reference :=
  match (raw.get "references").getD (.list []) with
  | .list items => items.filterMap validator.referencePayload
  | _ => []

/-- `model_type.model_validate` -/
def validate (document : Document) : Option Model :=
  match document.kind with
  | .task => (validator.models.task document.raw).map fun head =>
      .task head (validator.payloads document.raw) ((validator.models.taskHead document.raw).dependencies ++ (validator.models.taskHead document.raw).blockers)
  | .claim => (validator.models.claim document.raw).map .claim
  | .artifact => (validator.manifest document.raw).map .artifact
  | .observation => (validator.models.standaloneObservation document.raw).map .observation
  | .entity => ((validator.models.entity document.raw).filter validator.entityIdIsValid).map fun head =>
      .entity head (validator.payloads document.raw)

/-- `_validate_embedded_observations`: the errors, and the observations. -/
def validateEmbedded (evidenceId : String) (raw : Frontmatter) : List String × List Model :=
  match (raw.get "observations").getD .null with
  | .null => ([], [])
  | .list items =>
    (items.flatMap fun item =>
      match validator.models.observation item with
      | none => ["OBS-INVALID"]
      | some observation =>
        if (evidenceId ++ "#OBS-").toList.isPrefixOf observation.id.toList then [] else ["OBS-EVIDENCE-ID"],
      items.filterMap fun item => (validator.models.observation item).map .observation)
  | _ => (["OBS-INVALID"], [])

/-- `_validate_document`: the errors, and the records. -/
def validateDocument (document : Document) : List String × List Model :=
  match validator.validate document with
  | none => ([if document.kind = .observation then "OBS-INVALID" else "DOC-MODEL"], [])
  | some (.entity head references) =>
    if head.entityType = "evidence" then
      let (issues, observations) := validator.validateEmbedded head.id document.raw
      (issues, .entity head references :: observations)
    else ([], [.entity head references])
  | some model => ([], [model])

/-! Records. -/

def sorted (files : Files) : Files := files.mergeSort fun one two => decide (one.1 ≤ two.1)

def documents (files : Files) : List Document :=
  (sorted files).filterMap fun file => (validator.parseDocument file.1 file.2).2

def records (files : Files) : List (String × Model) :=
  (validator.documents files).flatMap fun document => (validator.validateDocument document).2.map fun model => (document.path, model)

def identity : Model → Option String
  | .entity head _ => some head.uri
  | .task head _ _ => some head.uri
  | .claim claim => recordUri validator.contextId "claim" claim.id
  | .artifact id => recordUri validator.contextId "artifact" id
  | .observation observation => recordUri validator.contextId "observation" observation.id

/-- `_check_reference` of a reference that is required to be one: the errors of its form and of its context. -/
def checkReference (value : String) : List String :=
  if startsWith "workctx:" (String.ofList (lowered value.toList)) then
    match validator.models.parseUri value with
    | none => ["REF-INVALID-URI"]
    | some uri =>
      if uriText uri ≠ value then ["REF-INVALID-URI"]
      else if uri.contextId ≠ validator.contextId then ["REF-CONTEXT-MISMATCH"]
      else if uri.entityType ∈ entityTypes then []
      else ["REF-UNKNOWN-ENTITY-TYPE"]
  else if validator.durable value then []
  else ["REF-INVALID-URI"]

def valuesOf (references : List Reference) : List String :=
  references.flatMap fun reference => reference.target :: reference.sourceObservations

/-- The references of a record that `_document_references` finds at the paths of its kind. -/
def referenceValues : Model → List String
  | .entity head references => head.uri :: valuesOf references
  | .task head references _ => head.uri :: valuesOf references
  | .claim claim => claim.subject :: claim.sourceObservations
  | .observation observation => observation.derivedFrom ++ valuesOf observation.related
  | .artifact _ => []

def checkIdentities (files : Files) : List String :=
  if ((validator.records files).filterMap fun record => validator.identity record.2).Nodup then [] else ["DOC-DUPLICATE-ID"]

def issues (files : Files) : List String :=
  ((sorted files).flatMap fun file => (validator.parseDocument file.1 file.2).1) ++
    ((validator.documents files).flatMap fun document => (validator.validateDocument document).1) ++
    validator.checkIdentities files ++
    ((validator.records files).flatMap fun record => (referenceValues record.2).flatMap validator.checkReference) ++
    validator.otherIssues files

/-! Edges. -/

def typedReferences : Model → List Reference
  | .entity _ references => references
  | .task _ references _ => references
  | .observation observation => observation.related
  | _ => []

def referenceEdges (model : Model) : List Edge :=
  (validator.identity model).toList.flatMap fun source =>
    ((typedReferences model).filter fun reference => validator.durable reference.target).map (edgeOf source)

def derivationEdges (model : Model) : List Edge :=
  match model with
  | .observation observation => (validator.identity model).toList.flatMap fun source =>
      (observation.derivedFrom.filter validator.durable).map fun target => ⟨source, "derived_from", target⟩
  | _ => []

def supersessionEdges (model : Model) : List Edge :=
  match model with
  | .claim claim => (validator.identity model).toList.flatMap fun source =>
      (claim.supersedes.bind (recordUri validator.contextId "claim")).toList.map (fun older => ⟨source, "supersedes", older⟩) ++
        (claim.supersededBy.bind (recordUri validator.contextId "claim")).toList.map fun newer => ⟨newer, "supersedes", source⟩
  | _ => []

/-- The tasks with what they depend on and are blocked by; the first one of an identifier counts. -/
def tasksOf (records : List (String × Model)) : Directory String (List String) :=
  records.filterMap fun record =>
    match record.2 with
    | .task head _ relations => some (head.id, relations)
    | _ => none

def taskTargetId (tasks : Directory String (List String)) (value : String) : Option String :=
  if (tasks.get value).isSome then some value
  else
    ((validator.models.parseUri value).filter fun uri => uriText uri == value && uri.entityType == "task" &&
      uri.contextId == validator.contextId && (tasks.get uri.entityId).isSome).map WorkctxUri.entityId

def taskEdges (records : List (String × Model)) : List Edge :=
  let tasks := tasksOf records
  (tasks.map Prod.fst).flatMap fun id => ((tasks.get id).getD []).flatMap fun value =>
    ((validator.taskTargetId tasks value).bind (recordUri validator.contextId "task")).toList.flatMap fun target =>
      (recordUri validator.contextId "task" id).toList.map fun source => ⟨source, "depends_on", target⟩

def structuralEdges (files : Files) : List Edge :=
  ((validator.records files).flatMap fun record => validator.derivationEdges record.2 ++ validator.supersessionEdges record.2) ++
    validator.taskEdges (validator.records files)

def canonicalEdges (files : Files) : List Edge :=
  ((validator.records files).flatMap fun record => validator.referenceEdges record.2) ++ validator.structuralEdges files

end Validator
end Workctx.Graph
