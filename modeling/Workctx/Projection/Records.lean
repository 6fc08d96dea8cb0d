import Mathlib.Order.Basic
import Workctx.Domain.Claims
import Workctx.Domain.Tasks
import Workctx.Projection.Shortest
import Workctx.Search.Visible

/-! The tables of a projection and the typed reads of them. -/

namespace Workctx.Projection
open Workctx.References Workctx.Retrieval Workctx.Search
open Workctx.Domain (ClaimStatus TaskStatus isClaimId)

/-! Records. The columns that no read looks at are the rest of a record; a record has the topics of its document. -/

structure EntityRecord (ρ : Type) where
  id : Text
  entityUri : WorkctxUri
  uri : Text
  aliases : List Text
  topics : List String
  rest : ρ
  printed : entityUri.str = .ok uri
  named : entityUri.entityId = id

structure TaskRecord (ρ : Type) where
  id : Text
  status : TaskStatus
  owner : Option Text
  waitingOn : List Text
  rootTask : Text
  parentTask : Option Text
  topics : List String
  rest : ρ

/-- The observation time is kept as its text. -/
structure ClaimRecord (ρ : Type) where
  id : Text
  subject : Text
  status : ClaimStatus
  observedAt : String
  topics : List String
  rest : ρ

structure ObservationRecord (ρ : Type) where
  id : Text
  parent : Option Text
  topics : List String
  rest : ρ

inductive DocumentRecord (ρ : Type) where
  | entity (record : EntityRecord ρ)
  | task (record : TaskRecord ρ)
  | claim (record : ClaimRecord ρ)
  | observation (record : ObservationRecord ρ)

def DocumentRecord.topics {ρ : Type} : DocumentRecord ρ → List String
  | .entity record => record.topics
  | .task record => record.topics
  | .claim record => record.topics
  | .observation record => record.topics

/-- `ProjectionMetadata`, of the documents of a projection -/
structure ProjectionMetadata where
  sourceFingerprint : String
  sourceFileCount : Nat
  indexedDocumentCount : Nat
  skippedDocumentCount : Nat
deriving DecidableEq

/-- The tables with their keys. No two documents share an id, a task is an entity, and no edge is of another context. -/
structure SQLiteProjection (tables : Tables) (ρ : Type) where
  contextId : Text
  metadata : ProjectionMetadata
  entities : List (EntityRecord ρ)
  tasks : List (TaskRecord ρ)
  claims : List (ClaimRecord ρ)
  observations : List (ObservationRecord ρ)
  edges : List EdgeRecord
  indexed : metadata.indexedDocumentCount =
    entities.length + claims.length + (observations.filter fun record => record.parent.isNone).length
  identities : (entities.map EntityRecord.id ++ claims.map ClaimRecord.id ++ observations.map ObservationRecord.id).Nodup
  entityUris : (entities.map EntityRecord.uri).Nodup
  taskIds : (tasks.map TaskRecord.id).Nodup
  taskEntities : ∀ task ∈ tasks, ∃ entity ∈ entities, entity.id = task.id ∧ entity.topics = task.topics
  edgePlaces : (edges.map fun edge => (edge.source, edge.ordinal)).Nodup
  sources : ∀ edge ∈ edges, edge.sourceUri.contextId = contextId
  targets : ∀ edge ∈ edges, ∀ uri, WorkctxUri.parse tables edge.target = .ok uri → uri.contextId = contextId

/-! Arguments. -/

inductive UriArgument where
  | text (value : Text)
  | uri (parsed : WorkctxUri)

inductive ReadError where
  | retrieval (error : RetrievalError)
  | value (message : String)
  /-- An id that is not of a claim, which the message quotes -/
  | claimId (id : Text)
deriving DecidableEq

def ofRetrieval {α : Type} (outcome : Except RetrievalError α) : Except ReadError α := outcome.mapError .retrieval

def isLocalText (value : Text) : Bool := (literal "workctx://".toList).isPrefixOf value

namespace SQLiteProjection
variable {tables : Tables} {ρ : Type} (projection : SQLiteProjection tables ρ)

def coerceLocalUri : UriArgument → Except RetrievalError WorkctxUri
  | .text value =>
    match WorkctxUri.parse tables value with
    | .error _ => .error (.isolation "URI is invalid or belongs to another context")
    | .ok uri =>
      if uri.contextId = projection.contextId then .ok uri else .error (.isolation "Structured URI belongs to another context")
  | .uri parsed =>
    if parsed.contextId = projection.contextId then .ok parsed else .error (.isolation "Structured URI belongs to another context")

def coerceDurableTarget : UriArgument → Except RetrievalError Text
  | .uri parsed =>
    if parsed.contextId = projection.contextId then ofValue parsed.str
    else .error (.isolation "Reference is invalid or belongs to another context")
  | .text value =>
    match parseDurableReference tables value with
    | .error _ => .error (.isolation "Reference is invalid or belongs to another context")
    | .ok parsed =>
      match parsed with
      | .workctx uri =>
        if uri.contextId = projection.contextId then
          match uri.str with
          | .error _ => .error (.isolation "Reference is invalid or belongs to another context")
          | .ok text => .ok text
        else .error (.isolation "Reference is invalid or belongs to another context")
      | other =>
        match other.str with
        | .error _ => .error (.isolation "Reference is invalid or belongs to another context")
        | .ok text => .ok text

/-- `_local_identifier`, with the check of an identifier -/
def localIdentifier (expectedType : String) (validator : Text → Except ReadError Unit) (argument : UriArgument) : Except ReadError Text := do
  let identifier ←
    match argument with
    | .text value => if isLocalText value then ofUri (ofRetrieval (projection.coerceLocalUri argument)) else .ok value
    | .uri _ => ofUri (ofRetrieval (projection.coerceLocalUri argument))
  if identifier.isEmpty then .error (.value "Identifier must not be empty")
  else do
    validator identifier
    .ok identifier
where
  /-- The identifier of a URI of the expected type -/
  ofUri (outcome : Except ReadError WorkctxUri) : Except ReadError Text := do
    let uri ← outcome
    if uri.entityType = literal expectedType.toList then .ok uri.entityId
    else .error (.value ("Expected a " ++ expectedType ++ " URI"))

/-! Documents. -/

def getEntityById (entityId : Text) : Except ReadError (Option (EntityRecord ρ)) :=
  if entityId.isEmpty then .error (.value "entity_id must not be empty")
  else .ok (projection.entities.find? fun record => decide (record.id = entityId))

def entityOfUri (uri : Text) : Option (EntityRecord ρ) := projection.entities.find? fun record => decide (record.uri = uri)

def getEntityByUri (argument : UriArgument) : Except RetrievalError (Option (EntityRecord ρ)) := do
  let parsed ← projection.coerceLocalUri argument
  let uri ← ofValue parsed.str
  .ok (projection.entityOfUri uri)

def findEntitiesByAlias (alias_ : Text) : Except ReadError (List (EntityRecord ρ)) :=
  if alias_.isEmpty then .error (.value "alias must not be empty")
  else .ok (sortedBy (fun record => codes record.id) (projection.entities.filter fun record => record.aliases.contains alias_))

def specialDocument (parsed : WorkctxUri) : Option (DocumentRecord ρ) :=
  if parsed.entityType = literal "task".toList then
    (projection.tasks.find? fun record => decide (record.id = parsed.entityId)).map .task
  else if parsed.entityType = literal "claim".toList then
    if fullmatch (fun chars => isClaimId (String.ofList chars)) parsed.entityId then
      (projection.claims.find? fun record => decide (record.id = parsed.entityId)).map .claim
    else none
  else if parsed.entityType = literal "observation".toList then
    if (parseObservationId parsed.entityId).toOption.isSome then
      (projection.observations.find? fun record => decide (record.id = parsed.entityId)).map .observation
    else none
  else none

def documentOf (parsed : WorkctxUri) : Except RetrievalError (Option (DocumentRecord ρ)) :=
  match projection.specialDocument parsed with
  | some record => .ok (some record)
  | none => (ofValue parsed.str).map fun uri => (projection.entityOfUri uri).map .entity

def getDocumentByUri (argument : UriArgument) : Except RetrievalError (Option (DocumentRecord ρ)) := do
  let parsed ← projection.coerceLocalUri argument
  projection.documentOf parsed

/-! Edges. -/

/-- `ORDER BY relation, source_uri, target_uri, ordinal` -/
def edgeOrder (edge : EdgeRecord) : String ×ₗ List Nat ×ₗ List Nat ×ₗ Nat :=
  toLex (edge.relation.value, toLex (codes edge.source, toLex (codes edge.target, edge.ordinal)))

def queryEdges (column : EdgeRecord → Text) (value : Text) (relations : Relations) : List EdgeRecord :=
  if relations = some [] then []
  else sortedBy edgeOrder (projection.edges.filter fun edge => decide (column edge = value) && relations.allow edge.relation)

def outboundEdges (source : UriArgument) (relations : Relations) : Except RetrievalError (List EdgeRecord) := do
  let parsed ← projection.coerceLocalUri source
  let uri ← ofValue parsed.str
  .ok (projection.queryEdges EdgeRecord.source uri relations)

def inboundEdges (target : UriArgument) (relations : Relations) : Except RetrievalError (List EdgeRecord) := do
  let value ← projection.coerceDurableTarget target
  .ok (projection.queryEdges EdgeRecord.target value relations)

/-! Observations, claims and tasks. -/

def getObservation (observation : UriArgument) : Except ReadError (Option (ObservationRecord ρ)) := do
  let id ← projection.localIdentifier "observation"
    (fun identifier => ofRetrieval (ofValue (parseObservationId identifier))) observation
  .ok (projection.observations.find? fun record => decide (record.id = id))

def observationsForParent (parent : UriArgument) : Except RetrievalError (List (ObservationRecord ρ)) := do
  let parsed ← projection.coerceLocalUri parent
  let uri ← ofValue parsed.str
  .ok (sortedBy (fun record => codes record.id) (projection.observations.filter fun record => decide (record.parent = some uri)))

/-- `ClaimId.parse` -/
def parseClaimId (identifier : Text) : Except ReadError Unit :=
  if fullmatch (fun chars => isClaimId (String.ofList chars)) identifier then .ok () else .error (.claimId identifier)

def getClaim (claim : UriArgument) : Except ReadError (Option (ClaimRecord ρ)) := do
  let id ← projection.localIdentifier "claim" parseClaimId claim
  .ok (projection.claims.find? fun record => decide (record.id = id))

/-- `ORDER BY observed_at DESC, id` -/
def claimOrder (record : ClaimRecord ρ) : Stringᵒᵈ ×ₗ List Nat := toLex (OrderDual.toDual record.observedAt, codes record.id)

def claimsForSubject (subject : UriArgument) (statuses : Option (List ClaimStatus)) : Except RetrievalError (List (ClaimRecord ρ)) := do
  let parsed ← projection.coerceLocalUri subject
  if statuses = some [] then .ok []
  else do
    let uri ← ofValue parsed.str
    .ok (sortedBy claimOrder (projection.claims.filter fun record =>
      decide (record.subject = uri) && statuses.all fun wanted => wanted.contains record.status))

def getTask (task : UriArgument) : Except ReadError (Option (TaskRecord ρ)) := do
  let id ← projection.localIdentifier "task" (fun _ => .ok ()) task
  .ok (projection.tasks.find? fun record => decide (record.id = id))

theorem coerceLocalUri_own {uri : WorkctxUri} (own : uri.contextId = projection.contextId) :
    projection.coerceLocalUri (.uri uri) = .ok uri := if_pos own

theorem getDocumentByUri_own {uri : WorkctxUri} (own : uri.contextId = projection.contextId) :
    projection.getDocumentByUri (.uri uri) = projection.documentOf uri := by
  unfold getDocumentByUri
  rw [projection.coerceLocalUri_own own]
  rfl

theorem documentOf_error {uri : WorkctxUri} {error : RetrievalError} (failed : projection.documentOf uri = .error error) :
    ∃ cause, error = .value cause := by
  unfold documentOf ofValue at failed
  split at failed
  · cases failed
  · cases printed : uri.str with
    | ok text =>
      rw [printed] at failed
      cases failed
    | error cause =>
      rw [printed] at failed
      exact ⟨cause, (Except.error.inj failed).symm⟩

end SQLiteProjection

structure TaskQuery where
  statuses : Option (List TaskStatus)
  owner : Option Text
  waitingOn : Option Text
  rootTask : Option Text
  parentTask : Option Text
  topic : Option String
  topicOnly : Bool

/-- `topic_matches`, and `_topic_scope_predicate` of a document's rows -/
def topicMatches (topics : List String) (topic : String) (topicOnly : Bool) : Bool :=
  topics.contains topic || (!topicOnly && topics.isEmpty)

def TaskQuery.selects {ρ : Type} (query : TaskQuery) (record : TaskRecord ρ) : Bool :=
  (query.statuses.all fun wanted => wanted.contains record.status) && (query.owner.all fun owner => decide (record.owner = some owner)) &&
    (query.rootTask.all fun root => decide (record.rootTask = root)) &&
    (query.parentTask.all fun parent => decide (record.parentTask = some parent)) &&
    query.waitingOn.all fun value => record.waitingOn.contains value

def SQLiteProjection.queryTasks {tables : Tables} {ρ : Type} (projection : SQLiteProjection tables ρ) (query : TaskQuery) :
    Except ReadError (List (TaskRecord ρ)) := do
  for value in [query.owner, query.waitingOn] do
    if value.any isLocalText then
      let _ ← ofRetrieval (projection.coerceLocalUri (.text (value.getD [])))
  if query.statuses = some [] then .ok []
  else
    match query.topic with
    | none =>
      if query.topicOnly then .error (.value "topic_only requires a topic")
      else .ok (sortedBy (fun record => codes record.id) (projection.tasks.filter query.selects))
    | some topic =>
      .ok (sortedBy (fun record => codes record.id) (projection.tasks.filter fun record =>
        query.selects record && topicMatches record.topics topic query.topicOnly))

end Workctx.Projection
