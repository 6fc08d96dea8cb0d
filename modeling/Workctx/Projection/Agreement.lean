import Workctx.Projection.Topics

/-! Projections that agree in a scope are read alike. -/

namespace Workctx.Projection
open Workctx.References Workctx.Retrieval Workctx.Search List
open Workctx.Domain (ClaimStatus bind_ok)

variable {tables : Tables} {ρ : Type}

/-! Keys. -/

theorem nodup_codes {α : Type} {key : α → Text} {rows : List α} (distinct : (rows.map key).Nodup) :
    (rows.map fun row => codes (key row)).Nodup := by
  have mapped := distinct.map codes_injective
  rwa [map_map] at mapped

theorem nodup_of_determined {α κ μ : Type} {key : α → κ} {fine : α → μ} {rows : List α} (distinct : (rows.map key).Nodup)
    (determined : ∀ one two, fine one = fine two → key one = key two) : (rows.map fine).Nodup :=
  (List.Nodup.of_map key distinct).map_on fun first member second also same =>
    inj_on_of_nodup_map distinct member also (determined first second same)

theorem scalars_of_fullmatch {pattern : List Char → Bool} {text : Text} (matched : fullmatch pattern text = true) :
    (scalars? text).isSome = true := by
  unfold fullmatch at matched
  cases read : scalars? text with
  | none =>
    rw [read] at matched
    exact matched
  | some chars => rfl

namespace SQLiteProjection
variable (projection : SQLiteProjection tables ρ)

theorem entityIds : (projection.entities.map EntityRecord.id).Nodup :=
  ((nodup_append.mp projection.identities).1).of_append_left

theorem claimIds : (projection.claims.map ClaimRecord.id).Nodup :=
  ((nodup_append.mp projection.identities).1).of_append_right

theorem observationIds : (projection.observations.map ObservationRecord.id).Nodup := (nodup_append.mp projection.identities).2.1

theorem entity_ne_claim {entity : EntityRecord ρ} {claim : ClaimRecord ρ} (member : entity ∈ projection.entities)
    (claimed : claim ∈ projection.claims) : entity.id ≠ claim.id := by
  have apart := (nodup_append.mp (nodup_append.mp projection.identities).1).2.2
  exact apart _ (mem_map_of_mem member) _ (mem_map_of_mem claimed)

theorem entity_ne_observation {entity : EntityRecord ρ} {observation : ObservationRecord ρ} (member : entity ∈ projection.entities)
    (observed : observation ∈ projection.observations) : entity.id ≠ observation.id := by
  have apart := (nodup_append.mp projection.identities).2.2
  exact apart _ (mem_append_left _ (mem_map_of_mem member)) _ (mem_map_of_mem observed)

theorem edgeOrders : (projection.edges.map edgeOrder).Nodup := by
  apply nodup_of_determined projection.edgePlaces
  intro one two same
  simp only [edgeOrder, EmbeddingLike.apply_eq_iff_eq, Prod.mk.injEq] at same
  rw [codes_injective same.2.1, same.2.2.2]

theorem claimOrders : (projection.claims.map claimOrder).Nodup := by
  apply nodup_of_determined projection.claimIds
  intro one two same
  simp only [claimOrder, EmbeddingLike.apply_eq_iff_eq, Prod.mk.injEq] at same
  exact codes_injective same.2

theorem entityOfUri_some {parsed : WorkctxUri} {text : Text} {entity : EntityRecord ρ} (printed : parsed.str = .ok text)
    (found : projection.entityOfUri text = some entity) : entity ∈ projection.entities ∧ entity.id = parsed.entityId := by
  have stored : entity.uri = text := by simpa using find?_some found
  have read := WorkctxUri.parse_str tables entity.printed
  rw [stored, WorkctxUri.parse_str tables printed] at read
  refine ⟨mem_of_find?_eq_some found, ?_⟩
  rw [Except.ok.inj read, entity.named]

theorem specialDocument_some {parsed : WorkctxUri} {record : DocumentRecord ρ} (found : projection.specialDocument parsed = some record) :
    (∃ text, parsed.str = .ok text) ∧
      ∀ entity ∈ projection.entities, entity.id = parsed.entityId → entity.topics = record.topics := by
  rw [WorkctxUri.str_returns]
  unfold specialDocument at found
  split at found
  · obtain ⟨task, row, rfl⟩ := Option.map_eq_some_iff.mp found
    have id : task.id = parsed.entityId := by simpa using find?_some row
    obtain ⟨own, member, same, topics⟩ := projection.taskEntities task (mem_of_find?_eq_some row)
    constructor
    · have printed := (WorkctxUri.str_returns own.entityUri).mp ⟨_, own.printed⟩
      rwa [own.named, same, id] at printed
    · intro entity listed named
      rw [inj_on_of_nodup_map projection.entityIds listed member (named.trans (id.symm.trans same.symm))]
      exact topics
  · split at found
    · split at found
      · next shape =>
        obtain ⟨claim, row, rfl⟩ := Option.map_eq_some_iff.mp found
        have id : claim.id = parsed.entityId := by simpa using find?_some row
        constructor
        · exact scalars_of_fullmatch shape
        · intro entity listed named
          exact absurd (named.trans id.symm) (projection.entity_ne_claim listed (mem_of_find?_eq_some row))
      · cases found
    · split at found
      · split at found
        · next shape =>
          obtain ⟨observation, row, rfl⟩ := Option.map_eq_some_iff.mp found
          have id : observation.id = parsed.entityId := by simpa using find?_some row
          constructor
          · unfold parseObservationId at shape
            split at shape
            · next matched => exact scalars_of_fullmatch matched
            · cases shape
          · intro entity listed named
            exact absurd (named.trans id.symm) (projection.entity_ne_observation listed (mem_of_find?_eq_some row))
        · cases found
      · cases found

theorem documentOf_visible (scope : TopicScope) (parsed : WorkctxUri) :
    (projection.documentOf parsed).map (fun found => found.filter fun record => scope.includes record.topics) =
      ((projection.specialDocument parsed).filter fun record => scope.includes record.topics).elim
        ((ofValue parsed.str).map fun text => ((projection.entityOfUri text).filter fun record => scope.includes record.topics).map .entity)
        (fun record => .ok (some record)) := by
  unfold documentOf
  cases found : projection.specialDocument parsed with
  | none =>
    cases printed : parsed.str with
    | error error => rfl
    | ok text =>
      dsimp only [ofValue, Except.mapError, Except.map, Option.filter_none, Option.elim]
      rw [Option.filter_map]
      rfl
  | some record =>
    cases shown : scope.includes record.topics with
    | true => simp [shown, Except.map, Option.filter]
    | false =>
      obtain ⟨⟨text, printed⟩, topics⟩ := projection.specialDocument_some found
      have hidden : (projection.entityOfUri text).filter (fun record => scope.includes record.topics) = none := by
        rw [Option.filter_eq_none_iff]
        intro entity looked
        obtain ⟨member, named⟩ := projection.entityOfUri_some printed looked
        rw [topics entity member named, shown]
        exact Bool.false_ne_true
      have concealed : (some record).filter (fun record => scope.includes record.topics) = none := Option.filter_some_neg (by simp [shown])
      rw [printed, concealed]
      dsimp only [ofValue, Except.mapError, Except.map, Option.elim]
      rw [concealed, hidden]
      rfl

end SQLiteProjection

/-! Agreement. -/

/-- The documents in the scope are the same, and so are their edges. -/
structure AgreeInScope (scope : TopicScope) (one two : SQLiteProjection tables ρ) : Prop where
  contextId : one.contextId = two.contextId
  entities : Agree (fun record => scope.includes record.topics) one.entities two.entities
  tasks : Agree (fun record => scope.includes record.topics) one.tasks two.tasks
  claims : Agree (fun record => scope.includes record.topics) one.claims two.claims
  observations : Agree (fun record => scope.includes record.topics) one.observations two.observations
  edges : Agree (fun edge => scope.includes edge.topics) one.edges two.edges

theorem map_bind_congr {ε α β γ : Type} {outcome : Except ε α} {one two : α → Except ε β} {view other : β → γ}
    (same : ∀ value, (one value).map view = (two value).map other) : (outcome >>= one).map view = (outcome >>= two).map other := by
  cases outcome with
  | error error => rfl
  | ok value => exact same value

namespace AgreeInScope
variable {scope : TopicScope} {one two : SQLiteProjection tables ρ}

section
variable (agree : AgreeInScope scope one two)
include agree

theorem coerceLocalUri (argument : UriArgument) :
    one.coerceLocalUri argument = two.coerceLocalUri argument := by
  unfold SQLiteProjection.coerceLocalUri
  rw [agree.contextId]

theorem coerceDurableTarget (argument : UriArgument) :
    one.coerceDurableTarget argument = two.coerceDurableTarget argument := by
  unfold SQLiteProjection.coerceDurableTarget
  rw [agree.contextId]

theorem localIdentifier (expectedType : String) (validator : Text → Except ReadError Unit)
    (argument : UriArgument) : one.localIdentifier expectedType validator argument = two.localIdentifier expectedType validator argument := by
  unfold SQLiteProjection.localIdentifier
  rw [agree.coerceLocalUri]

end

variable (agree : AgreeInScope scope one two)
include agree

/-! Documents. -/

theorem getEntityById (entityId : Text) :
    (TopicScopedReader.mk one scope).getEntityById entityId = (TopicScopedReader.mk two scope).getEntityById entityId := by
  unfold TopicScopedReader.getEntityById SQLiteProjection.getEntityById
  split
  · rfl
  · exact congrArg Except.ok (find_agree one.entityIds two.entityIds agree.entities entityId)

theorem entityOfUri (uri : Text) : (one.entityOfUri uri).filter (fun record => scope.includes record.topics) =
    (two.entityOfUri uri).filter fun record => scope.includes record.topics :=
  find_agree one.entityUris two.entityUris agree.entities uri

theorem getEntityByUri (uri : UriArgument) :
    (TopicScopedReader.mk one scope).getEntityByUri uri = (TopicScopedReader.mk two scope).getEntityByUri uri := by
  unfold TopicScopedReader.getEntityByUri SQLiteProjection.getEntityByUri TopicScopedReader.one
  rw [agree.coerceLocalUri]
  exact map_bind_congr fun parsed => map_bind_congr fun text => congrArg Except.ok (agree.entityOfUri text)

theorem findEntitiesByAlias (alias_ : Text) :
    (TopicScopedReader.mk one scope).findEntitiesByAlias alias_ = (TopicScopedReader.mk two scope).findEntitiesByAlias alias_ := by
  unfold TopicScopedReader.findEntitiesByAlias SQLiteProjection.findEntitiesByAlias
  split
  · rfl
  · exact congrArg Except.ok (sorted_agree (nodup_codes one.entityIds) (nodup_codes two.entityIds) agree.entities _)

theorem specialDocument (parsed : WorkctxUri) :
    (one.specialDocument parsed).filter (fun record => scope.includes record.topics) =
      (two.specialDocument parsed).filter fun record => scope.includes record.topics := by
  unfold SQLiteProjection.specialDocument
  split
  · rw [Option.filter_map, Option.filter_map]
    exact congrArg (Option.map DocumentRecord.task) (find_agree one.taskIds two.taskIds agree.tasks parsed.entityId)
  · split
    · split
      · rw [Option.filter_map, Option.filter_map]
        exact congrArg (Option.map DocumentRecord.claim) (find_agree one.claimIds two.claimIds agree.claims parsed.entityId)
      · rfl
    · split
      · split
        · rw [Option.filter_map, Option.filter_map]
          exact congrArg (Option.map DocumentRecord.observation)
            (find_agree one.observationIds two.observationIds agree.observations parsed.entityId)
        · rfl
      · rfl

theorem getDocumentByUri (uri : UriArgument) :
    (TopicScopedReader.mk one scope).getDocumentByUri uri = (TopicScopedReader.mk two scope).getDocumentByUri uri := by
  unfold TopicScopedReader.getDocumentByUri SQLiteProjection.getDocumentByUri TopicScopedReader.one
  rw [agree.coerceLocalUri]
  refine map_bind_congr fun parsed => ?_
  rw [SQLiteProjection.documentOf_visible, SQLiteProjection.documentOf_visible, agree.specialDocument]
  congr 2
  funext text
  rw [agree.entityOfUri]

/-! Observations, claims and tasks. -/

theorem getObservation (observation : UriArgument) :
    (TopicScopedReader.mk one scope).getObservation observation = (TopicScopedReader.mk two scope).getObservation observation := by
  unfold TopicScopedReader.getObservation SQLiteProjection.getObservation TopicScopedReader.one
  rw [agree.localIdentifier]
  exact map_bind_congr fun id => congrArg Except.ok (find_agree one.observationIds two.observationIds agree.observations id)

theorem observationsForParent (parent : UriArgument) :
    (TopicScopedReader.mk one scope).observationsForParent parent = (TopicScopedReader.mk two scope).observationsForParent parent := by
  unfold TopicScopedReader.observationsForParent SQLiteProjection.observationsForParent TopicScopedReader.many
  rw [agree.coerceLocalUri]
  exact map_bind_congr fun parsed => map_bind_congr fun text =>
    congrArg Except.ok (sorted_agree (nodup_codes one.observationIds) (nodup_codes two.observationIds) agree.observations _)

theorem getClaim (claim : UriArgument) :
    (TopicScopedReader.mk one scope).getClaim claim = (TopicScopedReader.mk two scope).getClaim claim := by
  unfold TopicScopedReader.getClaim SQLiteProjection.getClaim TopicScopedReader.one
  rw [agree.localIdentifier]
  exact map_bind_congr fun id => congrArg Except.ok (find_agree one.claimIds two.claimIds agree.claims id)

theorem claimsForSubject (subject : UriArgument) (statuses : Option (List ClaimStatus)) :
    (TopicScopedReader.mk one scope).claimsForSubject subject statuses = (TopicScopedReader.mk two scope).claimsForSubject subject statuses := by
  unfold TopicScopedReader.claimsForSubject SQLiteProjection.claimsForSubject TopicScopedReader.many
  rw [agree.coerceLocalUri]
  refine map_bind_congr fun parsed => ?_
  split
  · rfl
  · exact map_bind_congr fun text => congrArg Except.ok (sorted_agree one.claimOrders two.claimOrders agree.claims _)

theorem getTask (task : UriArgument) :
    (TopicScopedReader.mk one scope).getTask task = (TopicScopedReader.mk two scope).getTask task := by
  unfold TopicScopedReader.getTask SQLiteProjection.getTask TopicScopedReader.one
  rw [agree.localIdentifier]
  exact map_bind_congr fun id => congrArg Except.ok (find_agree one.taskIds two.taskIds agree.tasks id)

theorem scopedTasks (query : TaskQuery) :
    (sortedBy (fun record => codes record.id) (one.tasks.filter fun record => query.selects record && scope.includes record.topics)) =
      sortedBy (fun record => codes record.id) (two.tasks.filter fun record => query.selects record && scope.includes record.topics) := by
  have shown : ∀ projection : SQLiteProjection tables ρ, ∀ record ∈ sortedBy (fun record : TaskRecord ρ => codes record.id)
      (projection.tasks.filter fun record => query.selects record && scope.includes record.topics), scope.includes record.topics = true := by
    intro projection record member
    have kept := (mem_filter.mp (mem_sortedBy.mp member)).2
    exact (Bool.and_eq_true_iff.mp kept).2
  have same := sorted_agree (nodup_codes one.taskIds) (nodup_codes two.taskIds) agree.tasks
    fun record => query.selects record && scope.includes record.topics
  rwa [filter_eq_self.mpr (shown one), filter_eq_self.mpr (shown two)] at same

theorem queryTasks (query : Option TaskQuery) :
    (TopicScopedReader.mk one scope).queryTasks query = (TopicScopedReader.mk two scope).queryTasks query := by
  unfold TopicScopedReader.queryTasks SQLiteProjection.queryTasks
  dsimp only
  simp only [agree.coerceLocalUri]
  refine bind_congr fun _ => ?_
  split
  · rfl
  · exact congrArg Except.ok (agree.scopedTasks _)

/-! Edges. -/

theorem queryEdges (column : EdgeRecord → Text) (value : Text) (relations : Relations) :
    (one.queryEdges column value relations).filter (fun edge => scope.includes edge.topics) =
      (two.queryEdges column value relations).filter fun edge => scope.includes edge.topics := by
  unfold SQLiteProjection.queryEdges
  split
  · rfl
  · exact sorted_agree one.edgeOrders two.edgeOrders agree.edges _

theorem inboundEdges (target : UriArgument) (relations : Relations) :
    (TopicScopedReader.mk one scope).inboundEdges target relations = (TopicScopedReader.mk two scope).inboundEdges target relations := by
  unfold TopicScopedReader.inboundEdges SQLiteProjection.inboundEdges TopicScopedReader.many
  rw [agree.coerceDurableTarget]
  exact map_bind_congr fun value => congrArg Except.ok (agree.queryEdges EdgeRecord.target value relations)

end AgreeInScope

namespace TopicScopedReader
variable (view : TopicScopedReader tables ρ)

theorem mem_queryEdges {projection : SQLiteProjection tables ρ} {column : EdgeRecord → Text} {value : Text} {relations : Relations}
    {edge : EdgeRecord} (member : edge ∈ projection.queryEdges column value relations) :
    edge ∈ projection.edges ∧ column edge = value := by
  unfold SQLiteProjection.queryEdges at member
  split at member
  · cases member
  · obtain ⟨stored, asked⟩ := mem_filter.mp (mem_sortedBy.mp member)
    exact ⟨stored, of_decide_eq_true (Bool.and_eq_true_iff.mp asked).1⟩

theorem outboundEdges_shown (source : UriArgument) (relations : Relations) :
    view.outboundEdges source relations = (view.reader.outboundEdges source relations).map fun edges =>
      (edges.filter fun edge => view.scope.includes edge.topics).filter fun edge => !view.hides edge.target := by
  have tested : ∀ edge ∈ view.reader.edges,
      (if view.scope.includes edge.topics then view.targetInScope edge.target else .ok false) =
        .ok (!view.hides edge.target && view.scope.includes edge.topics) := by
    intro edge member
    rw [view.targetInScope_edge member]
    cases view.scope.includes edge.topics <;> simp
  unfold outboundEdges SQLiteProjection.outboundEdges
  cases view.reader.coerceLocalUri source with
  | error error => rfl
  | ok parsed =>
    cases printed : ofValue parsed.str with
    | error error => simp [bind, Except.bind, printed, Except.map]
    | ok text =>
      have kept := keepWhere_filter fun edge member =>
        tested edge (@mem_queryEdges tables ρ view.reader EdgeRecord.source text relations edge member).1
      simp only [bind, Except.bind, printed, Except.map]
      rw [kept, filter_filter]

theorem outboundEdges_lists (edge : EdgeRecord) (member : edge ∈ view.reader.edges) (shown : view.scope.includes edge.topics = true) :
    ∃ edges, view.outboundEdges (.uri edge.sourceUri) none = .ok edges ∧ (edge ∈ edges ↔ view.hides edge.target = false) := by
  have read : view.reader.outboundEdges (.uri edge.sourceUri) none = .ok (view.reader.queryEdges EdgeRecord.source edge.source none) := by
    unfold SQLiteProjection.outboundEdges
    rw [view.reader.coerceLocalUri_own (view.reader.sources edge member)]
    dsimp only [bind, Except.bind]
    rw [edge.printed]
    rfl
  have asked : edge ∈ view.reader.queryEdges EdgeRecord.source edge.source none := by
    unfold SQLiteProjection.queryEdges
    rw [if_neg (by decide), mem_sortedBy, mem_filter]
    exact ⟨member, by simp [Relations.allow]⟩
  have listed := view.outboundEdges_shown (.uri edge.sourceUri) none
  rw [read] at listed
  refine ⟨_, listed, ?_⟩
  rw [mem_filter, mem_filter, Bool.not_eq_true']
  exact ⟨fun kept => kept.2, fun visible => ⟨⟨asked, shown⟩, visible⟩⟩

end TopicScopedReader

/-! Observers. -/

/-- Every read in the scope gives the same result on both projections. -/
structure Indistinguishable (scope : TopicScope) (one two : SQLiteProjection tables ρ) : Prop where
  entityById : ∀ id, (TopicScopedReader.mk one scope).getEntityById id = (TopicScopedReader.mk two scope).getEntityById id
  entityByUri : ∀ uri, (TopicScopedReader.mk one scope).getEntityByUri uri = (TopicScopedReader.mk two scope).getEntityByUri uri
  entitiesByAlias : ∀ text, (TopicScopedReader.mk one scope).findEntitiesByAlias text = (TopicScopedReader.mk two scope).findEntitiesByAlias text
  document : ∀ uri, (TopicScopedReader.mk one scope).getDocumentByUri uri = (TopicScopedReader.mk two scope).getDocumentByUri uri
  outbound : ∀ source relations,
    (TopicScopedReader.mk one scope).outboundEdges source relations = (TopicScopedReader.mk two scope).outboundEdges source relations
  inbound : ∀ target relations,
    (TopicScopedReader.mk one scope).inboundEdges target relations = (TopicScopedReader.mk two scope).inboundEdges target relations
  observation : ∀ id, (TopicScopedReader.mk one scope).getObservation id = (TopicScopedReader.mk two scope).getObservation id
  observations : ∀ parent,
    (TopicScopedReader.mk one scope).observationsForParent parent = (TopicScopedReader.mk two scope).observationsForParent parent
  claim : ∀ id, (TopicScopedReader.mk one scope).getClaim id = (TopicScopedReader.mk two scope).getClaim id
  claims : ∀ subject statuses,
    (TopicScopedReader.mk one scope).claimsForSubject subject statuses = (TopicScopedReader.mk two scope).claimsForSubject subject statuses
  task : ∀ id, (TopicScopedReader.mk one scope).getTask id = (TopicScopedReader.mk two scope).getTask id
  tasks : ∀ query, (TopicScopedReader.mk one scope).queryTasks query = (TopicScopedReader.mk two scope).queryTasks query
  related : ∀ reference direction depth relations,
    Projection.related tables (TopicScopedReader.mk one scope).projectionReader reference direction depth relations =
      Projection.related tables (TopicScopedReader.mk two scope).projectionReader reference direction depth relations

/-- The same edges of the scope lead to a document out of it. -/
def HidesAlike (scope : TopicScope) (one two : SQLiteProjection tables ρ) : Prop :=
  ∀ edge ∈ one.edges, scope.includes edge.topics = true →
    (TopicScopedReader.mk one scope).hides edge.target = (TopicScopedReader.mk two scope).hides edge.target

namespace AgreeInScope
variable {scope : TopicScope} {one two : SQLiteProjection tables ρ}

section
variable (agree : AgreeInScope scope one two)
include agree

theorem outboundEdges (alike : HidesAlike scope one two) (source : UriArgument) (relations : Relations) :
    (TopicScopedReader.mk one scope).outboundEdges source relations = (TopicScopedReader.mk two scope).outboundEdges source relations := by
  rw [TopicScopedReader.outboundEdges_shown, TopicScopedReader.outboundEdges_shown]
  unfold SQLiteProjection.outboundEdges
  rw [agree.coerceLocalUri]
  refine map_bind_congr fun parsed => map_bind_congr fun text => congrArg Except.ok ?_
  dsimp only
  rw [← agree.queryEdges]
  apply filter_congr
  intro edge member
  obtain ⟨listed, shown⟩ := mem_filter.mp member
  rw [alike edge (TopicScopedReader.mem_queryEdges listed).1 shown]

theorem indistinguishable (alike : HidesAlike scope one two) : Indistinguishable scope one two := by
  have same : (TopicScopedReader.mk one scope).projectionReader = (TopicScopedReader.mk two scope).projectionReader := by
    unfold TopicScopedReader.projectionReader
    rw [ProjectionReader.mk.injEq]
    refine ⟨agree.contextId, ?_, ?_, ?_⟩
    · funext uri
      exact agree.getDocumentByUri (.uri uri)
    · funext uri relations
      exact agree.outboundEdges alike (.uri uri) relations
    · funext current relations
      exact agree.inboundEdges (.text current) relations
  exact {
    entityById := agree.getEntityById
    entityByUri := agree.getEntityByUri
    entitiesByAlias := agree.findEntitiesByAlias
    document := agree.getDocumentByUri
    outbound := agree.outboundEdges alike
    inbound := agree.inboundEdges
    observation := agree.getObservation
    observations := agree.observationsForParent
    claim := agree.getClaim
    claims := agree.claimsForSubject
    task := agree.getTask
    tasks := agree.queryTasks
    related := fun reference direction depth relations => by rw [same] }

theorem hidesAlike (same : Indistinguishable scope one two) : HidesAlike scope one two := by
  intro edge member shown
  obtain ⟨edges, read, listed⟩ := (TopicScopedReader.mk one scope).outboundEdges_lists edge member shown
  obtain ⟨others, again, also⟩ := (TopicScopedReader.mk two scope).outboundEdges_lists edge ((agree.edges edge shown).mp member) shown
  rw [same.outbound, again] at read
  rw [← Except.ok.inj read] at listed
  have hidden := listed.symm.trans also
  rwa [← Bool.not_eq_true, ← Bool.not_eq_true, not_iff_not, ← Bool.eq_iff_iff] at hidden

end

end AgreeInScope

end Workctx.Projection
