import Workctx.Owners.Lookup
import Workctx.Relational.Insertion
import Workctx.Topics.Folding
import Workctx.Validation.ClaimRules

/-! The tables of the projection: the rows of the accepted documents, and the database that a rebuild makes of them. -/

namespace Workctx.Owners
open Workctx.Text Workctx.Concurrent Workctx.Domain Workctx.Migration Workctx.Relational

/-! The schema. -/

inductive Table where
  | projectionMetadata
  | entities
  | aliases
  | entityTags
  | documentTopics
  | edges
  | edgeSourceObservations
  | observations
  | observationDerivations
  | claims
  | claimSourceObservations
  | tasks
  | taskWaitingOn
  | taskDependencies
  | taskBlockers
  | taskSourceObservations
  | searchDocuments
deriving DecidableEq

/-- A value as a record has it, before it is made a text: an instant, and a JSON value, if Python can print it. -/
inductive Cell where
  | null
  | number (value : Nat)
  | text (value : String)
  | time (instant : Int)
  | json (printed : Option String)
deriving DecidableEq

def textOr (value : Option String) : Cell := (value.map .text).getD .null

def timeOf (value : AwareDatetime) : Cell := .time value.instant

def timeOr (value : Option AwareDatetime) : Cell := (value.map timeOf).getD .null

/-- Whether a value becomes a text of the database: `_datetime_text` is in UTC, and within the calendar. -/
def storable (models : Models) : Cell → Bool
  | .null => true
  | .number _ => true
  | .text value => models.encodes value
  | .time instant => decide (Validation.earliest ≤ instant ∧ instant ≤ Validation.latest)
  | .json printed => printed.any models.encodes

/-- The columns that are not null; those of the body, of the fingerprint, of the versions and of the clock are left out. -/
def requiredColumns : Table → List String
  | .projectionMetadata => ["singleton", "context_id", "context_updated_at", "source_file_count", "indexed_document_count",
      "skipped_document_count"]
  | .entities => ["context_id", "id", "entity_type", "uri", "title", "source_path", "created_at", "updated_at"]
  | .aliases => ["context_id", "entity_id", "position", "alias"]
  | .entityTags => ["context_id", "entity_id", "position", "tag"]
  | .documentTopics => ["context_id", "source_path", "position", "topic"]
  | .edges => ["context_id", "source_uri", "relation", "target_uri", "source_path", "ordinal"]
  | .edgeSourceObservations => ["source_uri", "source_path", "ordinal", "position", "observation_uri"]
  | .observations => ["context_id", "id", "uri", "kind", "statement", "confidence", "source_ref", "locator_type", "locator_json",
      "source_path"]
  | .observationDerivations => ["context_id", "observation_id", "position", "source_reference"]
  | .claims => ["context_id", "id", "uri", "subject_uri", "predicate", "object_json", "observed_at", "status", "confidence",
      "source_path"]
  | .claimSourceObservations => ["context_id", "claim_id", "position", "observation_uri"]
  | .tasks => ["context_id", "id", "task_type", "root_task", "priority", "status", "next_action"]
  | .taskWaitingOn | .taskDependencies | .taskBlockers | .taskSourceObservations => ["context_id", "task_id", "position", "value"]
  | .searchDocuments => ["context_id", "record_kind", "record_id", "entity_type", "uri", "title", "statement", "source_path"]

/-- The primary and the unique keys. An edge is its source, its path and its ordinal, in place of the number of its row. -/
def tableKeys : Table → List (List String)
  | .projectionMetadata => [["singleton"]]
  | .entities => [["context_id", "id"], ["context_id", "uri"]]
  | .aliases => [["context_id", "entity_id", "position"], ["context_id", "entity_id", "alias"]]
  | .entityTags => [["context_id", "entity_id", "position"], ["context_id", "entity_id", "tag"]]
  | .documentTopics => [["context_id", "source_path", "position"], ["context_id", "source_path", "topic"]]
  | .edges => [["context_id", "source_uri", "source_path", "ordinal"]]
  | .edgeSourceObservations =>
    [["source_uri", "source_path", "ordinal", "position"], ["source_uri", "source_path", "ordinal", "observation_uri"]]
  | .observations => [["context_id", "id"], ["context_id", "uri"]]
  | .observationDerivations =>
    [["context_id", "observation_id", "position"], ["context_id", "observation_id", "source_reference"]]
  | .claims => [["context_id", "id"], ["context_id", "uri"]]
  | .claimSourceObservations => [["context_id", "claim_id", "position"], ["context_id", "claim_id", "observation_uri"]]
  | .tasks => [["context_id", "id"]]
  | .taskWaitingOn | .taskDependencies | .taskBlockers | .taskSourceObservations =>
    [["context_id", "task_id", "position"], ["context_id", "task_id", "value"]]
  | .searchDocuments => [["context_id", "record_kind", "record_id"]]

def tableReferences : Table → List (List String × Table × List String)
  | .aliases | .entityTags => [(["context_id", "entity_id"], .entities, ["context_id", "id"])]
  | .edgeSourceObservations =>
    [(["source_uri", "source_path", "ordinal"], .edges, ["source_uri", "source_path", "ordinal"])]
  | .observationDerivations => [(["context_id", "observation_id"], .observations, ["context_id", "id"])]
  | .claimSourceObservations => [(["context_id", "claim_id"], .claims, ["context_id", "id"])]
  | .tasks => [(["context_id", "id"], .entities, ["context_id", "id"])]
  | .taskWaitingOn | .taskDependencies | .taskBlockers | .taskSourceObservations =>
    [(["context_id", "task_id"], .tasks, ["context_id", "id"])]
  | _ => []

def schemaOf (models : Models) : Schema Table Cell where
  storable := storable models
  isNull := fun cell => decide (cell = .null)
  required := requiredColumns
  keys := tableKeys
  references := tableReferences

/-- `ContextConfig`, and the registry of topics. -/
structure Configuration (contextId : String) where
  valid : matchesSlug contextId.toList = true
  updatedAt : AwareDatetime
  unicode : Topics.UnicodeData
  topics : List Topics.Topic

namespace Projection
variable (projection : Projection)

/-! Rows. -/

@[simp] def context : String × Cell := ("context_id", .text projection.contextId)

def orderedRows (table : Table) (owner : List (String × Cell)) (column : String) (values : List String) : List (Row Table Cell) :=
  values.zipIdx.map fun value => ⟨table, owner ++ [("position", .number value.2), (column, .text value.1)]⟩

def edgeOwner (sourceUri sourcePath : String) (ordinal : Nat) : List (String × Cell) :=
  [("source_uri", .text sourceUri), ("source_path", .text sourcePath), ("ordinal", .number ordinal)]

@[simp] def edgeRow (sourceUri sourcePath : String) (ordinal : Nat) (reference : Reference) : Row Table Cell :=
  ⟨.edges, projection.context :: edgeOwner sourceUri sourcePath ordinal ++
    [("relation", .text reference.relation), ("target_uri", .text reference.target), ("confidence", textOr reference.confidence),
      ("valid_from", timeOr reference.validFrom), ("valid_to", timeOr reference.validTo), ("note", textOr reference.note)]⟩

/-- `_insert_edge` -/
def edgeRows (sourceUri sourcePath : String) (references : List Reference) : List (Row Table Cell) :=
  references.zipIdx.flatMap fun reference =>
    projection.edgeRow sourceUri sourcePath reference.2 reference.1 ::
      orderedRows .edgeSourceObservations (edgeOwner sourceUri sourcePath reference.2) "observation_uri" reference.1.sourceObservations

/-- `_insert_search_document` -/
@[simp] def searchRow (kind id entityType uri title statement sourcePath : String) : Row Table Cell :=
  ⟨.searchDocuments, [projection.context, ("record_kind", .text kind), ("record_id", .text id), ("entity_type", .text entityType),
    ("uri", .text uri), ("title", .text title), ("statement", .text statement), ("source_path", .text sourcePath)]⟩

/-- The topics of an entity as the registry resolves them -/
def canonicalTopics {contextId : String} (configuration : Configuration contextId) (topics : List String) : List String :=
  (topics.map fun value => (Topics.resolvedSlug configuration.unicode configuration.topics value).getD value).eraseDups

@[simp] def entityRows (configuration : Configuration projection.contextId) (sourcePath : String) (references : List Reference)
    (entity : EntityHead) : List (Row Table Cell) :=
  let owner := [projection.context, ("entity_id", .text entity.id)]
  ⟨.entities, [projection.context, ("id", .text entity.id), ("entity_type", .text entity.entityType), ("uri", .text entity.uri),
    ("title", .text entity.title), ("status", textOr entity.status), ("confidence", textOr entity.confidence),
    ("source_path", .text sourcePath), ("created_at", timeOf entity.createdAt), ("updated_at", timeOf entity.updatedAt)]⟩ ::
  orderedRows .aliases owner "alias" entity.aliases ++
  orderedRows .entityTags owner "tag" entity.tags ++
  orderedRows .documentTopics [projection.context, ("source_path", .text sourcePath)] "topic" (canonicalTopics configuration entity.topics) ++
  projection.edgeRows entity.uri sourcePath references ++
  [projection.searchRow "entity" entity.id entity.entityType entity.uri entity.title "" sourcePath]

/-- `_insert_task` -/
@[simp] def taskRows (id : String) (task : TaskHead) : List (Row Table Cell) :=
  let owner := [projection.context, ("task_id", .text id)]
  ⟨.tasks, [projection.context, ("id", .text id), ("task_type", .text (if task.isSubtask then "subtask" else "parent")),
    ("parent_task", textOr task.parentTask), ("root_task", .text task.rootTask), ("priority", .text task.priority),
    ("status", .text task.status), ("owner", textOr task.owner), ("requester", textOr task.requester), ("due_at", timeOr task.dueAt),
    ("next_action", .text task.nextAction)]⟩ ::
  orderedRows .taskWaitingOn owner "value" task.waitingOn ++
  orderedRows .taskDependencies owner "value" task.dependencies ++
  orderedRows .taskBlockers owner "value" task.blockers ++
  orderedRows .taskSourceObservations owner "value" task.sourceObservations

/-- `_json_search_text` -/
def searchText (value : Yaml) : String := (value.text.or (projection.models.jsonText value)).getD ""

/-- `_insert_claim` -/
@[simp] def claimRows (sourcePath : String) (claim : ClaimHead) : List (Row Table Cell) :=
  let uri := (recordUri projection.contextId "claim" claim.id).getD ""
  ⟨.claims, [projection.context, ("id", .text claim.id), ("uri", .text uri), ("subject_uri", .text claim.subject),
    ("predicate", .text claim.predicate), ("object_json", .json (projection.models.jsonText claim.object)),
    ("observed_at", timeOf claim.observedAt), ("valid_from", timeOr claim.validFrom), ("valid_to", timeOr claim.validTo),
    ("status", .text claim.status), ("supersedes", textOr claim.supersedes), ("superseded_by", textOr claim.supersededBy),
    ("confidence", .text claim.confidence), ("source_path", .text sourcePath)]⟩ ::
  orderedRows .claimSourceObservations [projection.context, ("claim_id", .text claim.id)] "observation_uri" claim.sourceObservations ++
  [projection.searchRow "claim" claim.id "claim" uri "" (claim.predicate ++ " " ++ projection.searchText claim.object) sourcePath]

/-- `_insert_observation` -/
@[simp] def observationRows (sourcePath : String) (parent : Option String) (observation : Observation) : List (Row Table Cell) :=
  let uri := (recordUri projection.contextId "observation" observation.id).getD ""
  ⟨.observations, [projection.context, ("id", .text observation.id), ("uri", .text uri), ("parent_entity_uri", textOr parent),
    ("kind", .text observation.kind), ("statement", .text observation.statement), ("confidence", .text observation.confidence),
    ("source_ref", .text observation.sourceRef), ("locator_type", .text observation.locatorType),
    ("locator_json", .json (projection.models.jsonText observation.locator)), ("observed_at", timeOr observation.observedAt),
    ("valid_from", timeOr observation.validFrom), ("valid_to", timeOr observation.validTo), ("source_path", .text sourcePath)]⟩ ::
  orderedRows .observationDerivations [projection.context, ("observation_id", .text observation.id)] "source_reference"
    observation.derivedFrom ++
  projection.edgeRows uri sourcePath observation.related ++
  [projection.searchRow "observation" observation.id "observation" uri "" observation.statement sourcePath]

/-- `_insert_document` -/
@[simp] def documentRows (configuration : Configuration projection.contextId) (document : ParsedDocument) : List (Row Table Cell) :=
  let record := document.record
  (record.entity.toList.flatMap (projection.entityRows configuration document.sourcePath document.references)) ++
  (record.entity.toList.flatMap fun entity => record.task.toList.flatMap (projection.taskRows entity.id)) ++
  (record.claim.toList.flatMap (projection.claimRows document.sourcePath)) ++
  record.observations.flatMap (projection.observationRows document.sourcePath (record.entity.map EntityHead.uri))

def metadataRow (configuration : Configuration projection.contextId) (seen indexed skipped : Nat) : Row Table Cell :=
  ⟨.projectionMetadata, [("singleton", .number 1), projection.context, ("context_updated_at", timeOf configuration.updatedAt),
    ("source_file_count", .number seen), ("indexed_document_count", .number indexed), ("skipped_document_count", .number skipped)]⟩

/-- `_source_fingerprint` and `_build_temporary_database`: the rows of the database; none where the rebuild fails. -/
def build (configuration : Configuration projection.contextId) (files : Directory String Bytes) : Option (List (Row Table Cell)) :=
  let (documents, skipped) := projection.rebuild files
  if (sources files).all fun source => projection.models.encodes source.1 then
    insertAll (schemaOf projection.models) []
      (projection.metadataRow configuration (sources files).length documents.length skipped.length ::
        documents.flatMap (projection.documentRows configuration))
  else none

end Projection

end Workctx.Owners
