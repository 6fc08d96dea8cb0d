import Workctx.Projection.Records

/-! The reads of a projection in the scope of a topic. -/

namespace Workctx.Projection
open Workctx.References Workctx.Retrieval Workctx.Search
open Workctx.Domain (ClaimStatus bind_ok)

/-! The reader. -/

structure TopicScope where
  topic : String
  topicOnly : Bool
  nonempty : topic ≠ ""

/-- `_includes`, of the topics of a record -/
def TopicScope.includes (scope : TopicScope) (topics : List String) : Bool := topicMatches topics scope.topic scope.topicOnly

structure TopicScopedReader (tables : Tables) (ρ : Type) where
  reader : SQLiteProjection tables ρ
  scope : TopicScope

def keepWhere {ε α : Type} (test : α → Except ε Bool) : List α → Except ε (List α)
  | [] => .ok []
  | value :: rest => do
    let keep ← test value
    let kept ← keepWhere test rest
    .ok (if keep then value :: kept else kept)

namespace TopicScopedReader
variable {tables : Tables} {ρ : Type} (view : TopicScopedReader tables ρ)

def one {ε δ : Type} (topics : δ → List String) (record : Except ε (Option δ)) : Except ε (Option δ) :=
  record.map fun found => found.filter fun record => view.scope.includes (topics record)

def many {ε δ : Type} (topics : δ → List String) (records : Except ε (List δ)) : Except ε (List δ) :=
  records.map fun found => found.filter fun record => view.scope.includes (topics record)

def targetInScope (target : Text) : Except RetrievalError Bool :=
  if isLocalText target then
    match WorkctxUri.parse tables target with
    | .error _ => .ok true
    | .ok uri =>
      match view.reader.getDocumentByUri (.uri uri) with
      | .error (.value _) => .ok true
      | .error error => .error error
      | .ok record => .ok (record.all fun record => view.scope.includes record.topics)
  else .ok true

def metadata : ProjectionMetadata := view.reader.metadata

def getEntityById (entityId : Text) : Except ReadError (Option (EntityRecord ρ)) :=
  view.one EntityRecord.topics (view.reader.getEntityById entityId)

def getEntityByUri (uri : UriArgument) : Except RetrievalError (Option (EntityRecord ρ)) :=
  view.one EntityRecord.topics (view.reader.getEntityByUri uri)

def findEntitiesByAlias (alias_ : Text) : Except ReadError (List (EntityRecord ρ)) :=
  view.many EntityRecord.topics (view.reader.findEntitiesByAlias alias_)

def getDocumentByUri (uri : UriArgument) : Except RetrievalError (Option (DocumentRecord ρ)) :=
  view.one DocumentRecord.topics (view.reader.getDocumentByUri uri)

def outboundEdges (source : UriArgument) (relations : Relations) : Except RetrievalError (List EdgeRecord) := do
  let edges ← view.reader.outboundEdges source relations
  keepWhere (fun edge => if view.scope.includes edge.topics then view.targetInScope edge.target else .ok false) edges

def inboundEdges (target : UriArgument) (relations : Relations) : Except RetrievalError (List EdgeRecord) :=
  view.many EdgeRecord.topics (view.reader.inboundEdges target relations)

def getObservation (observation : UriArgument) : Except ReadError (Option (ObservationRecord ρ)) :=
  view.one ObservationRecord.topics (view.reader.getObservation observation)

def observationsForParent (parent : UriArgument) : Except RetrievalError (List (ObservationRecord ρ)) :=
  view.many ObservationRecord.topics (view.reader.observationsForParent parent)

def getClaim (claim : UriArgument) : Except ReadError (Option (ClaimRecord ρ)) :=
  view.one ClaimRecord.topics (view.reader.getClaim claim)

def claimsForSubject (subject : UriArgument) (statuses : Option (List ClaimStatus)) : Except RetrievalError (List (ClaimRecord ρ)) :=
  view.many ClaimRecord.topics (view.reader.claimsForSubject subject statuses)

def getTask (task : UriArgument) : Except ReadError (Option (TaskRecord ρ)) :=
  view.one TaskRecord.topics (view.reader.getTask task)

def queryTasks (query : Option TaskQuery) : Except ReadError (List (TaskRecord ρ)) :=
  view.reader.queryTasks { query.getD ⟨none, none, none, none, none, none, false⟩ with
    topic := some view.scope.topic
    topicOnly := view.scope.topicOnly }

def projectionReader : ProjectionReader (DocumentRecord ρ) where
  contextId := view.reader.contextId
  getDocumentByUri uri := view.getDocumentByUri (.uri uri)
  outboundEdges uri := view.outboundEdges (.uri uri)
  inboundEdges current := view.inboundEdges (.text current)

end TopicScopedReader

/-! What a scope hides. -/

theorem keepWhere_filter {ε α : Type} {test : α → Except ε Bool} {kept : α → Bool} {values : List α}
    (tests : ∀ value ∈ values, test value = .ok (kept value)) : keepWhere test values = .ok (values.filter kept) := by
  induction values with
  | nil => rfl
  | cons value rest ih =>
    have later := ih fun other member => tests other (List.mem_cons_of_mem _ member)
    unfold keepWhere
    rw [tests value List.mem_cons_self, later, List.filter_cons]
    rfl

variable {tables : Tables} {ρ : Type}

namespace TopicScopedReader
variable (view : TopicScopedReader tables ρ)

def hides (target : Text) : Bool := (view.targetInScope target).toOption == some false

theorem hides_iff {target : Text} : view.hides target = true ↔ isLocalText target = true ∧ ∃ uri record,
    WorkctxUri.parse tables target = .ok uri ∧ view.reader.getDocumentByUri (.uri uri) = .ok (some record) ∧
      view.scope.includes record.topics = false := by
  unfold hides targetInScope
  cases isLocalText target with
  | false => simp [Except.toOption]
  | true =>
    cases WorkctxUri.parse tables target with
    | error error => simp [Except.toOption]
    | ok uri =>
      cases read : view.reader.getDocumentByUri (.uri uri) with
      | error error => cases error <;> simp [Except.toOption, read]
      | ok found => cases found <;> simp [Except.toOption, read]

theorem targetInScope_edge {edge : EdgeRecord} (member : edge ∈ view.reader.edges) :
    view.targetInScope edge.target = .ok (!view.hides edge.target) := by
  have tested : ∃ answer, view.targetInScope edge.target = .ok answer := by
    unfold targetInScope
    split
    · split
      · exact ⟨true, rfl⟩
      · next uri parsed =>
        have own := view.reader.targets edge member uri parsed
        split
        · exact ⟨true, rfl⟩
        · next error plain failed =>
          rw [view.reader.getDocumentByUri_own own] at failed
          obtain ⟨cause, rfl⟩ := view.reader.documentOf_error failed
          exact absurd rfl (plain cause)
        · exact ⟨_, rfl⟩
    · exact ⟨true, rfl⟩
  obtain ⟨answer, tested⟩ := tested
  unfold hides
  rw [tested]
  cases answer <;> rfl

end TopicScopedReader

end Workctx.Projection
