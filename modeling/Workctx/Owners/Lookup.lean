import Mathlib.Data.List.Nodup
import Mathlib.Data.List.Pairwise
import Workctx.Owners.Records

/-! The projection of the canonical documents: which of them a rebuild accepts, and the lookup of a document by a URI. -/

namespace Workctx.Owners
open Workctx.Text Workctx.Concurrent Workctx.Domain Workctx.Migration List

/-- `_ParsedDocument`, with the identities of its records. -/
structure ParsedDocument where
  sourcePath : String
  record : Record
  references : List Reference
  identities : List (String × String)

/-- `SQLiteProjection` of a context -/
structure Projection where
  models : Models
  contextId : String

namespace Projection
variable (projection : Projection)

/-! The contexts of what a document refers to. -/

/-- `_require_local_uri` -/
def isLocalUri (uri : String) : Bool :=
  (projection.models.parseUri uri).any fun parsed => parsed.contextId == projection.contextId

/-- `_require_local_uri` of an observation -/
def isLocalObservation (uri : String) : Bool :=
  (projection.models.parseUri uri).any fun parsed => parsed.contextId == projection.contextId && parsed.entityType == "observation"

/-- `_require_reference_context` -/
def isLocalReference (value : String) : Bool :=
  projection.models.durable value && (projection.models.parseUri value).all fun parsed => parsed.contextId == projection.contextId

def localReference (reference : Reference) : Bool :=
  projection.isLocalReference reference.target && reference.sourceObservations.all projection.isLocalObservation

/-- `_validate_task_context` -/
def localTask (task : TaskHead) : Bool :=
  (task.owner.toList ++ task.requester.toList ++ task.waitingOn ++ task.dependencies ++ task.blockers ++ task.sourceObservations).all
    fun value => !"workctx://".toList.isPrefixOf value.toList || projection.isLocalUri value

/-- `_validate_claim_context` -/
def localClaim (claim : ClaimHead) : Bool :=
  projection.isLocalUri claim.subject && claim.sourceObservations.all projection.isLocalObservation

/-- `_validate_observation_context` -/
def localObservation (observation : Observation) : Bool :=
  observation.derivedFrom.all projection.isLocalReference && observation.related.all projection.localReference

def localRecord (record : Record) : Bool :=
  (record.task.all projection.localTask && record.claim.all projection.localClaim &&
    record.observations.all projection.localObservation) && record.entity.all fun head => projection.isLocalUri head.uri

/-! Documents. -/

def parseEntityReferences (raw : Frontmatter) : Option (List Reference) :=
  match (raw.get "references").getD (.list []) with
  | .list items => (items.mapM projection.models.typedReference).filter fun references => references.all projection.localReference
  | _ => none

/-- The typed references of a document; only entities have them. -/
def parseReferences (raw : Frontmatter) (record : Record) : Option (List Reference) :=
  if record.entity.isSome then projection.parseEntityReferences raw else some []

/-- `_parse_document` and `_document_identities` -/
def parseDocument (path : String) (content : Bytes) : Option ParsedDocument := do
  let raw ← projection.models.frontmatter content
  let record ← readRecord projection.models raw
  let references ← projection.parseReferences raw record
  let identities ← record.identities projection.contextId
  if projection.localRecord record && decide (identities.map Prod.fst).Nodup then some ⟨path, record, references, identities⟩
  else none

/-! The hierarchy of the tasks. -/

structure Task where
  id : String
  contextId : String
  head : TaskHead

def validateTaskHierarchy (tasks : List Task) : Bool :=
  decide (tasks.map Task.id).Nodup && decide ((tasks.map Task.contextId).eraseDups.length ≤ 1) && tasks.all fun task =>
    !task.head.isSubtask || task.head.parentTask.any fun parent => (tasks.find? fun other => other.id == parent).any fun other =>
      !other.head.isSubtask && other.head.rootTask == task.head.rootTask

def taskOf (document : ParsedDocument) : Option Task :=
  document.record.entity.bind fun head => document.record.task.map fun task =>
    ⟨head.id, ((projection.models.parseUri head.uri).map WorkctxUri.contextId).getD "", task⟩

/-- The loop over the tasks behind the accepted parents: the paths of those that are rejected. -/
def rejectTasks : List Task → List (String × Task) → List String
  | _, [] => []
  | parents, (path, task) :: rest =>
    if task.head.isSubtask then
      if validateTaskHierarchy ((parents.find? fun parent => parent.id == task.head.rootTask).toList ++ [task]) then
        rejectTasks parents rest
      else path :: rejectTasks parents rest
    else if validateTaskHierarchy [task] then rejectTasks (parents ++ [task]) rest
    else path :: rejectTasks parents rest

def sortTasks (tasks : List (String × Task)) : List (String × Task) :=
  tasks.mergeSort fun one two => decide (one.2.id ≤ two.2.id)

/-- The second loop of `_parse_sources`: parent tasks come first. -/
def rejectedTasks (documents : List ParsedDocument) : List String :=
  let tasks := documents.filterMap fun document => (projection.taskOf document).map fun task => (document.sourcePath, task)
  rejectTasks []
    (sortTasks (tasks.filter fun task => !task.2.head.isSubtask) ++ sortTasks (tasks.filter fun task => task.2.head.isSubtask))

/-- The first loop of `_parse_sources`: the parsed documents, and the paths of the skipped ones. -/
def parseSources : List (String × String) → List (String × Bytes) → List ParsedDocument × List String
  | _, [] => ([], [])
  | seen, (path, content) :: rest =>
    match projection.parseDocument path content with
    | none =>
      let (parsed, skipped) := parseSources seen rest
      (parsed, path :: skipped)
    | some document =>
      if document.identities.any fun identity =>
          (seen.map Prod.fst).contains identity.1 || (seen.map Prod.snd).contains identity.2 then
        let (parsed, skipped) := parseSources seen rest
        (parsed, path :: skipped)
      else
        let (parsed, skipped) := parseSources (document.identities ++ seen) rest
        (document :: parsed, skipped)

def sources (files : Directory String Bytes) : List (String × Bytes) :=
  (files.filter fun entry => isIndexedPath entry.1).mergeSort fun one two => decide (one.1 ≤ two.1)

/-- `rebuild`: the documents that are indexed, and the paths of the skipped ones. -/
def rebuild (files : Directory String Bytes) : List ParsedDocument × List String :=
  let (parsed, skipped) := projection.parseSources [] (sources files)
  let rejected := projection.rejectedTasks parsed
  (parsed.filter fun document => !rejected.contains document.sourcePath, skipped ++ rejected)

def entityByUri (documents : List ParsedDocument) (uri : String) : Option ParsedDocument :=
  documents.find? fun document => document.record.entity.any fun head => head.uri == uri

def recordById (documents : List ParsedDocument) (entityType id : String) : Option ParsedDocument :=
  if entityType = "task" then
    documents.find? fun document => document.record.task.isSome && document.record.entity.any fun head => head.id == id
  else if entityType = "claim" && isClaimId id then
    documents.find? fun document => document.record.claim.any fun claim => claim.id == id
  else if entityType = "observation" && isObservationId id then
    documents.find? fun document => document.record.observations.any fun observation => observation.id == id
  else none

/-- `get_document_by_uri`: the path of the document, and none where the URI is refused. -/
def getDocumentByUri (documents : List ParsedDocument) (uri : String) : Option (Option String) :=
  match projection.models.parseUri uri with
  | none => none
  | some parsed =>
    if parsed.contextId = projection.contextId then
      some (((recordById documents parsed.entityType parsed.entityId).or (entityByUri documents (uriText parsed))).map
        ParsedDocument.sourcePath)
    else none

end Projection

/-! The identities of a record. -/

section
variable {models : Models} {contextId : String}

theorem recordUri_made {entityType id uri : String} (made : recordUri contextId entityType id = some uri) :
    models.parseUri uri = some ⟨contextId, entityType, id⟩ := by
  unfold recordUri at made
  split at made
  · next valid =>
    cases made
    exact models.parse_uriText _ valid
  · exact absurd made (by simp)

theorem recordUri_text {entityType id uri : String} (made : recordUri contextId entityType id = some uri) :
    uri = uriText ⟨contextId, entityType, id⟩ := by
  unfold recordUri at made
  split at made
  · exact (Option.some.inj made).symm
  · exact absurd made (by simp)

/-- An identity is that of the entity, of the claim, or of an observation of the document. -/
inductive IdentityOf (contextId : String) (record : Record) : String → String → Prop
  | entity (head : EntityHead) (own : record.entity = some head) : IdentityOf contextId record head.id head.uri
  | claim (claim : ClaimHead) (uri : String) (own : record.claim = some claim)
    (named : recordUri contextId "claim" claim.id = some uri) : IdentityOf contextId record claim.id uri
  | observation (observation : Observation) (uri : String) (own : observation ∈ record.observations)
    (named : recordUri contextId "observation" observation.id = some uri) : IdentityOf contextId record observation.id uri

theorem mapM_some_mem {α β : Type} {items : List α} {read : α → Option β} {results : List β} (made : items.mapM read = some results) :
    (∀ result ∈ results, ∃ item ∈ items, read item = some result) ∧ ∀ item ∈ items, ∃ result ∈ results, read item = some result := by
  induction items generalizing results with
  | nil =>
    obtain rfl : results = [] := by simpa using made.symm
    simp
  | cons item rest ih =>
    rw [mapM_cons] at made
    simp only [Option.bind_eq_bind, Option.pure_def, Option.bind_eq_some_iff, Option.some.injEq] at made
    obtain ⟨first, read, others, below, rfl⟩ := made
    obtain ⟨back, forth⟩ := ih below
    refine ⟨forall_mem_cons.mpr ⟨⟨item, mem_cons_self, read⟩, ?_⟩, forall_mem_cons.mpr ⟨⟨first, mem_cons_self, read⟩, ?_⟩⟩
    · intro result member
      obtain ⟨source, inside, same⟩ := back result member
      exact ⟨source, mem_cons_of_mem _ inside, same⟩
    · intro source member
      obtain ⟨result, inside, same⟩ := forth source member
      exact ⟨result, mem_cons_of_mem _ inside, same⟩

theorem identities_made {record : Record} {identities : List (String × String)} (made : record.identities contextId = some identities) :
    (∀ identity ∈ identities, IdentityOf contextId record identity.1 identity.2) ∧
      (∀ head, record.entity = some head → (head.id, head.uri) ∈ identities) ∧
      (∀ claim, record.claim = some claim → ∃ uri, (claim.id, uri) ∈ identities) ∧
      ∀ observation ∈ record.observations, ∃ uri, (observation.id, uri) ∈ identities := by
  unfold Record.identities at made
  simp only [Option.bind_eq_bind, Option.bind_eq_some_iff, Option.some.injEq] at made
  obtain ⟨claims, claimed, observations, observed, rfl⟩ := made
  obtain ⟨claimsBack, claimsForth⟩ := mapM_some_mem claimed
  obtain ⟨observationsBack, observationsForth⟩ := mapM_some_mem observed
  refine ⟨?_, ?_, ?_, ?_⟩
  · intro identity member
    rw [mem_append, mem_append] at member
    rcases member with (entity | claim) | observation
    · obtain ⟨head, own, rfl⟩ := mem_map.mp entity
      exact .entity head (Option.mem_toList.mp own)
    · obtain ⟨head, own, same⟩ := claimsBack identity claim
      obtain ⟨uri, made, rfl⟩ := Option.map_eq_some_iff.mp same
      exact .claim head uri (Option.mem_toList.mp own) made
    · obtain ⟨embedded, own, same⟩ := observationsBack identity observation
      obtain ⟨uri, made, rfl⟩ := Option.map_eq_some_iff.mp same
      exact .observation embedded uri own made
  · intro head own
    rw [mem_append, mem_append]
    exact .inl (.inl (mem_map.mpr ⟨head, Option.mem_toList.mpr own, rfl⟩))
  · intro claim own
    obtain ⟨identity, inside, same⟩ := claimsForth claim (Option.mem_toList.mpr own)
    obtain ⟨uri, _, rfl⟩ := Option.map_eq_some_iff.mp same
    exact ⟨uri, mem_append_left _ (mem_append_right _ inside)⟩
  · intro observation own
    obtain ⟨identity, inside, same⟩ := observationsForth observation own
    obtain ⟨uri, _, rfl⟩ := Option.map_eq_some_iff.mp same
    exact ⟨uri, mem_append_right _ inside⟩

structure Typed (models : Models) (record : Record) : Prop where
  entity : ∀ head, record.entity = some head → ∃ contextId entityType,
    validUri ⟨contextId, entityType, head.id⟩ = true ∧ head.uri = uriText ⟨contextId, entityType, head.id⟩
  claim : ∀ claim, record.claim = some claim → isClaimId claim.id = true
  observations : ∀ observation ∈ record.observations, isObservationId observation.id = true

theorem readRecord_typed {raw : Frontmatter} {record : Record} (made : readRecord models raw = some record) : Typed models record := by
  unfold readRecord at made
  split at made
  · split at made
    · exact absurd made (by simp)
    · split at made
      · obtain ⟨claim, accepted, rfl⟩ := Option.map_eq_some_iff.mp made
        refine ⟨by simp, ?_, by simp⟩
        intro id own
        cases own
        exact models.claim_id _ _ accepted
      · split at made
        · obtain ⟨observation, accepted, rfl⟩ := Option.map_eq_some_iff.mp made
          refine ⟨by simp, by simp, ?_⟩
          intro id own
          obtain rfl := mem_singleton.mp own
          exact models.standaloneObservation_id _ _ accepted
        · exact absurd made (by simp)
  · next value _ =>
    obtain ⟨head, read, more⟩ := Option.bind_eq_some_iff.mp made
    obtain ⟨observations, embedded, done⟩ := Option.bind_eq_some_iff.mp more
    cases done
    refine ⟨?_, by simp, ?_⟩
    · intro own same
      cases same
      unfold readHead at read
      split at read
      · obtain ⟨contextId, address⟩ := models.task_uri _ _ read
        exact ⟨contextId, _, address⟩
      · obtain ⟨contextId, address⟩ := models.entity_uri _ _ read
        exact ⟨contextId, _, address⟩
    · intro id member
      unfold embeddedObservations at embedded
      split at embedded
      · obtain ⟨item, _, accepted⟩ := (mapM_some_mem embedded).1 id member
        exact models.observation_id _ _ (Option.filter_eq_some_iff.mp accepted).1
      · exact absurd embedded (by simp)

theorem IdentityOf.spelled {record : Record} {id uri : String} (typed : Typed models record)
    (identity : IdentityOf contextId record id uri) :
    ∃ parsed, models.parseUri uri = some parsed ∧ parsed.entityId = id ∧ uriText parsed = uri := by
  cases identity with
  | entity head own =>
    obtain ⟨context, entityType, valid, spelled⟩ := typed.entity head own
    rw [spelled]
    exact ⟨_, models.parse_uriText _ valid, rfl, rfl⟩
  | claim _ _ own named => exact ⟨_, recordUri_made named, rfl, (recordUri_text named).symm⟩
  | observation _ _ own named => exact ⟨_, recordUri_made named, rfl, (recordUri_text named).symm⟩

end

/-! A rebuild without skipped documents. -/

/-- Two documents have no identifier and no URI in common. -/
structure Apart (one two : ParsedDocument) : Prop where
  ids : ∀ id uri other, (id, uri) ∈ one.identities → (id, other) ∉ two.identities
  uris : ∀ uri id other, (id, uri) ∈ one.identities → (other, uri) ∉ two.identities

instance : Std.Symm Apart where
  symm _ _ apart := ⟨fun id uri other member also => apart.ids id other uri also member,
    fun uri id other member also => apart.uris uri other id also member⟩

namespace Projection
variable {projection : Projection}

structure Parsed (projection : Projection) (path : String) (content : Bytes) (document : ParsedDocument) (raw : Frontmatter) : Prop where
  path : document.sourcePath = path
  read : projection.models.frontmatter content = some raw
  record : readRecord projection.models raw = some document.record
  references : projection.parseReferences raw document.record = some document.references
  identities : document.record.identities projection.contextId = some document.identities
  inContext : projection.localRecord document.record = true
  apart : (document.identities.map Prod.fst).Nodup

variable {document : ParsedDocument} {files : Directory String Bytes}

theorem parseDocument_iff {path : String} {content : Bytes} :
    projection.parseDocument path content = some document ↔ ∃ raw, Parsed projection path content document raw := by
  unfold parseDocument
  constructor
  · intro made
    obtain ⟨raw, read, made⟩ := Option.bind_eq_some_iff.mp made
    obtain ⟨record, typed, made⟩ := Option.bind_eq_some_iff.mp made
    obtain ⟨references, referred, made⟩ := Option.bind_eq_some_iff.mp made
    obtain ⟨identities, named, made⟩ := Option.bind_eq_some_iff.mp made
    split at made
    · next accepted =>
      cases made
      rw [Bool.and_eq_true, decide_eq_true_iff] at accepted
      exact ⟨raw, rfl, read, typed, referred, named, accepted.1, accepted.2⟩
    · exact absurd made (by simp)
  · rintro ⟨raw, parsed⟩
    refine Option.bind_eq_some_iff.mpr ⟨raw, parsed.read, ?_⟩
    refine Option.bind_eq_some_iff.mpr ⟨document.record, parsed.record, ?_⟩
    refine Option.bind_eq_some_iff.mpr ⟨document.references, parsed.references, ?_⟩
    refine Option.bind_eq_some_iff.mpr ⟨document.identities, parsed.identities, ?_⟩
    rw [if_pos (by rw [parsed.inContext, decide_eq_true parsed.apart]; rfl), ← parsed.path]

/-- An identity of the document has its identifier, or its URI, among those that are known. -/
def Shares (document : ParsedDocument) (known : List (String × String)) : Prop :=
  ∃ identity ∈ document.identities, identity.1 ∈ known.map Prod.fst ∨ identity.2 ∈ known.map Prod.snd

theorem Shares.split {document : ParsedDocument} {known others : List (String × String)} (shares : Shares document (known ++ others)) :
    Shares document known ∨ Shares document others := by
  obtain ⟨identity, member, same⟩ := shares
  rw [map_append, map_append, mem_append, mem_append] at same
  rcases same with (one | two) | (one | two)
  · exact .inl ⟨identity, member, .inl one⟩
  · exact .inr ⟨identity, member, .inl two⟩
  · exact .inl ⟨identity, member, .inr one⟩
  · exact .inr ⟨identity, member, .inr two⟩

/-- What the first loop makes of some sources, behind the identities that were seen. -/
structure Sifted (projection : Projection) (seen : List (String × String)) (sources : List (String × Bytes))
    (parsed : List ParsedDocument) (skipped : List String) : Prop where
  kept : ∀ path content, (path, content) ∈ sources → path ∉ skipped →
    ∃ document ∈ parsed, projection.parseDocument path content = some document
  made : ∀ document ∈ parsed, ∃ path content, (path, content) ∈ sources ∧ projection.parseDocument path content = some document
  apart : parsed.Pairwise Apart
  fresh : ∀ document ∈ parsed, ¬Shares document seen
  reason : (sources.map Prod.fst).Nodup → ∀ path ∈ skipped, ∃ content, (path, content) ∈ sources ∧ ∀ document, projection.parseDocument path content = some document →
    Shares document seen ∨ ∃ other ∈ parsed, other.sourcePath ≠ path ∧ Shares document other.identities

theorem apart_of_fresh {other : ParsedDocument} {known : List (String × String)}
    (fresh : ¬Shares other (document.identities ++ known)) : Apart document other := by
  constructor
  · intro id uri spelling first second
    refine fresh ⟨_, second, .inl (mem_map.mpr ⟨(id, uri), mem_append_left _ first, rfl⟩)⟩
  · intro uri id spelling first second
    exact fresh ⟨_, second, .inr (mem_map.mpr ⟨(id, uri), mem_append_left _ first, rfl⟩)⟩

theorem parseSources_sifted {seen : List (String × String)} {sources : List (String × Bytes)} :
    Sifted projection seen sources (projection.parseSources seen sources).1 (projection.parseSources seen sources).2 := by
  induction sources generalizing seen with
  | nil => exact ⟨by simp, by simp [parseSources], .nil, by simp [parseSources], by simp [parseSources]⟩
  | cons source rest ih =>
    obtain ⟨path, content⟩ := source
    -- A skipped document leaves what was seen as it is.
    have passed : (∀ document, projection.parseDocument path content = some document → Shares document seen) →
        Sifted projection seen ((path, content) :: rest) (projection.parseSources seen rest).1
          (path :: (projection.parseSources seen rest).2) := by
      intro taken
      have below : Sifted projection seen rest _ _ := ih
      constructor
      · intro other content' member outside
        rw [mem_cons, not_or] at outside
        rcases mem_cons.mp member with same | inside
        · exact absurd (Prod.mk.inj same).1 outside.1
        · exact below.kept other content' inside outside.2
      · intro document member
        obtain ⟨other, content', inside, read⟩ := below.made document member
        exact ⟨other, content', mem_cons_of_mem _ inside, read⟩
      · exact below.apart
      · exact below.fresh
      · intro distinct other member
        rw [map_cons, nodup_cons] at distinct
        rcases mem_cons.mp member with rfl | inside
        · exact ⟨content, mem_cons_self, fun document read => .inl (taken document read)⟩
        · obtain ⟨content', found, why⟩ := below.reason distinct.2 other inside
          exact ⟨content', mem_cons_of_mem _ found, why⟩
    rw [parseSources]
    cases read : projection.parseDocument path content with
    | none => exact passed fun document same => absurd (read.symm.trans same) (by simp)
    | some document =>
      dsimp only
      split
      · next seen' =>
        refine passed fun other same => ?_
        obtain rfl := Option.some.inj (read.symm.trans same)
        obtain ⟨identity, member, known⟩ := any_eq_true.mp seen'
        rw [Bool.or_eq_true, contains_iff_mem, contains_iff_mem] at known
        exact ⟨identity, member, known⟩
      · next new =>
        have below : Sifted projection (document.identities ++ seen) rest _ _ := ih
        have ownFresh : ¬Shares document seen := by
          rintro ⟨identity, member, known⟩
          refine new (any_eq_true.mpr ⟨identity, member, ?_⟩)
          rw [Bool.or_eq_true, contains_iff_mem, contains_iff_mem]
          exact known
        obtain ⟨raw, parsed⟩ := parseDocument_iff.mp read
        constructor
        · intro other content' member outside
          rcases mem_cons.mp member with same | inside
          · cases same
            exact ⟨document, mem_cons_self, read⟩
          · obtain ⟨found, own, made⟩ := below.kept other content' inside outside
            exact ⟨found, mem_cons_of_mem _ own, made⟩
        · refine forall_mem_cons.mpr ⟨⟨path, content, mem_cons_self, read⟩, ?_⟩
          intro other member
          obtain ⟨place, content', inside, made⟩ := below.made other member
          exact ⟨place, content', mem_cons_of_mem _ inside, made⟩
        · exact pairwise_cons.mpr ⟨fun other member => apart_of_fresh (below.fresh other member), below.apart⟩
        · refine forall_mem_cons.mpr ⟨ownFresh, ?_⟩
          rintro other member ⟨identity, inside, known⟩
          refine below.fresh other member ⟨identity, inside, ?_⟩
          rw [map_append, map_append]
          exact known.imp (mem_append_right _) (mem_append_right _)
        · intro distinct other member
          rw [map_cons, nodup_cons] at distinct
          obtain ⟨content', found, why⟩ := below.reason distinct.2 other member
          refine ⟨content', mem_cons_of_mem _ found, ?_⟩
          intro skipped made
          rcases why skipped made with shares | ⟨owner, own, elsewhere, shares⟩
          · rcases shares.split with first | old
            · refine .inr ⟨document, mem_cons_self, ?_, first⟩
              intro same
              rw [parsed.path] at same
              exact distinct.1 (mem_map.mpr ⟨(other, content'), found, same.symm⟩)
            · exact .inl old
          · exact .inr ⟨owner, mem_cons_of_mem _ own, elsewhere, shares⟩

theorem mem_sources {path : String} {content : Bytes} :
    (path, content) ∈ sources files ↔ (path, content) ∈ files ∧ isIndexedPath path = true := by
  unfold sources
  rw [(mergeSort_perm _ _).mem_iff, mem_filter]

theorem sources_distinct (distinct : (files.map Prod.fst).Nodup) :
    ((sources files).map Prod.fst).Nodup := by
  refine (((mergeSort_perm _ _).map Prod.fst).nodup_iff).mpr ?_
  exact distinct.sublist (filter_sublist.map Prod.fst)

theorem mem_rebuild
    (member : document ∈ (projection.rebuild files).1) :
    ∃ content, (document.sourcePath, content) ∈ files ∧ isIndexedPath document.sourcePath = true ∧
      projection.parseDocument document.sourcePath content = some document := by
  unfold rebuild at member
  dsimp only at member
  have sifted : Sifted projection [] (sources files) _ _ := parseSources_sifted
  obtain ⟨path, content, inside, made⟩ := sifted.made document (mem_filter.mp member).1
  obtain ⟨found, indexed⟩ := mem_sources.mp inside
  obtain ⟨raw, parsed⟩ := parseDocument_iff.mp made
  obtain rfl := parsed.path
  exact ⟨content, found, indexed, made⟩

/-- What a rebuild without skipped documents gives. -/
structure Complete (projection : Projection) (files : Directory String Bytes) (documents : List ParsedDocument) : Prop where
  each : ∀ path content, files.get path = some content → isIndexedPath path = true →
    ∃ document ∈ documents, projection.parseDocument path content = some document
  parsed : ∀ document ∈ documents, ∃ path content, projection.parseDocument path content = some document
  apart : documents.Pairwise Apart

theorem rebuild_complete {documents : List ParsedDocument}
    (made : projection.rebuild files = (documents, [])) : projection.Complete files documents := by
  unfold rebuild at made
  cases first : projection.parseSources [] (sources files) with
  | mk parsed skipped =>
    rw [first] at made
    obtain ⟨kept, none⟩ := Prod.mk.inj made
    obtain ⟨rfl, rejected⟩ := append_eq_nil_iff.mp none
    obtain rfl : parsed = documents := by
      rw [← kept, rejected]
      simp
    have sifted : Sifted projection [] (sources files) _ _ := parseSources_sifted
    rw [first] at sifted
    constructor
    · intro path content found indexed
      exact sifted.kept path content (mem_sources.mpr ⟨Directory.mem_of_get found, indexed⟩) (by simp)
    · intro document member
      obtain ⟨path, content, _, made⟩ := sifted.made document member
      exact ⟨path, content, made⟩
    · exact sifted.apart

theorem parseDocument_made {path : String} {content : Bytes}
    (made : projection.parseDocument path content = some document) :
    document.sourcePath = path ∧ readDocument projection.models content = some document.record ∧
      document.record.identities projection.contextId = some document.identities ∧
      ∀ head, document.record.entity = some head → projection.isLocalUri head.uri = true := by
  obtain ⟨raw, parsed⟩ := parseDocument_iff.mp made
  refine ⟨parsed.path, ?_, parsed.identities, ?_⟩
  · unfold readDocument
    rw [parsed.read]
    exact parsed.record
  · intro head own
    have both := (Bool.and_eq_true_iff.mp parsed.inContext).2
    rw [own] at both
    exact both

/-! The hierarchy of the tasks. -/

theorem eraseDups_const {α : Type} [BEq α] [LawfulBEq α] {items : List α} {value : α} (same : ∀ item ∈ items, item = value) :
    items.eraseDups.length ≤ 1 := by
  cases items with
  | nil => simp
  | cons first rest =>
    have none_left : rest.filter (fun item => !item == first) = [] := by
      refine filter_eq_nil_iff.mpr fun item member => ?_
      rw [same item (mem_cons_of_mem _ member), same first mem_cons_self]
      simp
    rw [eraseDups_cons, none_left]
    simp

theorem find_of_unique {tasks : List Task} {task : Task} (unique : (tasks.map Task.id).Nodup) (member : task ∈ tasks) :
    (tasks.find? fun other => other.id == task.id) = some task := by
  cases found : tasks.find? fun other => other.id == task.id with
  | none => exact absurd (find?_eq_none.mp found task member) (by simp)
  | some other =>
    have same : other.id = task.id := by simpa using find?_some found
    exact congrArg some (inj_on_of_nodup_map unique (mem_of_find?_eq_some found) member same)

/-- The parent of a subtask is among the tasks, and has its root. -/
def Task.Below (tasks : List Task) (task : Task) : Prop :=
  ∃ parent ∈ tasks, task.head.parentTask = some parent.id ∧ parent.head.isSubtask = false ∧ parent.head.rootTask = task.head.rootTask

theorem validateTaskHierarchy_of {tasks : List Task} {contextId : String} (unique : (tasks.map Task.id).Nodup)
    (inContext : ∀ task ∈ tasks, task.contextId = contextId)
    (below : ∀ task ∈ tasks, task.head.isSubtask = true → Task.Below tasks task) : validateTaskHierarchy tasks = true := by
  unfold validateTaskHierarchy
  rw [Bool.and_eq_true, Bool.and_eq_true]
  refine ⟨⟨decide_eq_true unique, decide_eq_true ?_⟩, all_eq_true.mpr ?_⟩
  · refine @eraseDups_const _ _ _ _ contextId fun context member => ?_
    obtain ⟨task, inside, rfl⟩ := mem_map.mp member
    exact inContext task inside
  · intro task member
    by_cases subtask : task.head.isSubtask = true
    · obtain ⟨parent, inside, named, top, root⟩ := below task member subtask
      rw [named, Option.any_some, find_of_unique unique inside, Option.any_some, top, root, beq_self_eq_true]
      exact Bool.or_true _
    · rw [Bool.not_eq_true] at subtask
      rw [subtask]
      rfl

/-! Lookups. -/

section
variable {files : Directory String Bytes} {documents : List ParsedDocument} {document other : ParsedDocument} {id uri : String}

section
variable (complete : projection.Complete files documents)
include complete

section
variable (member : document ∈ documents)
include member

theorem Complete.named :
    Typed projection.models document.record ∧
      (∀ identity ∈ document.identities, IdentityOf projection.contextId document.record identity.1 identity.2) ∧
      (∀ head, document.record.entity = some head → (head.id, head.uri) ∈ document.identities) ∧
      (∀ claim, document.record.claim = some claim → ∃ uri, (claim.id, uri) ∈ document.identities) ∧
      ∀ observation ∈ document.record.observations, ∃ uri, (observation.id, uri) ∈ document.identities := by
  obtain ⟨path, content, made⟩ := complete.parsed document member
  obtain ⟨_, read, named, _⟩ := parseDocument_made made
  obtain ⟨raw, _, typed⟩ := Option.bind_eq_some_iff.mp read
  exact ⟨readRecord_typed typed, identities_made named⟩

theorem Complete.recordById
    (owned : (id, uri) ∈ document.identities) {entityType : String} (found : recordById documents entityType id = some other) :
    other = document := by
  have holds : other ∈ documents ∧ ∃ spelling, (id, spelling) ∈ other.identities := by
    unfold Projection.recordById at found
    split at found
    · have inside := mem_of_find?_eq_some found
      have task := find?_some found
      rw [Bool.and_eq_true, Option.any_eq_true] at task
      obtain ⟨_, head, own, same⟩ := task
      obtain ⟨_, _, entities, _, _⟩ := complete.named inside
      exact ⟨inside, head.uri, beq_iff_eq.mp same ▸ entities head own⟩
    · split at found
      · have inside := mem_of_find?_eq_some found
        have own := find?_some found
        rw [Option.any_eq_true] at own
        obtain ⟨claim, own, same⟩ := own
        obtain ⟨_, _, _, claims, _⟩ := complete.named inside
        exact ⟨inside, beq_iff_eq.mp same ▸ claims claim own⟩
      · split at found
        · have inside := mem_of_find?_eq_some found
          have own := find?_some found
          obtain ⟨observation, own, same⟩ := any_eq_true.mp own
          obtain ⟨_, _, _, _, observations⟩ := complete.named inside
          exact ⟨inside, beq_iff_eq.mp same ▸ observations observation own⟩
        · exact absurd found (by simp)
  obtain ⟨inside, spelling, also⟩ := holds
  by_contra differ
  exact (complete.apart.forall inside member differ).ids id spelling uri also owned

theorem Complete.entityByUri
    (owned : (id, uri) ∈ document.identities) (found : entityByUri documents uri = some other) : other = document := by
  have inside := mem_of_find?_eq_some found
  have entity := find?_some found
  rw [Option.any_eq_true] at entity
  obtain ⟨head, own, same⟩ := entity
  obtain ⟨_, _, entities, _, _⟩ := complete.named inside
  have also : (head.id, uri) ∈ other.identities := beq_iff_eq.mp same ▸ entities head own
  by_contra differ
  exact (complete.apart.forall inside member differ).uris uri head.id id also owned

theorem Complete.present
    (typed : Typed projection.models document.record)
    (identity : IdentityOf projection.contextId document.record id uri) {parsed : WorkctxUri}
    (named : projection.models.parseUri uri = some parsed) (spelled : uriText parsed = uri) :
    parsed.contextId = projection.contextId ∧
      (Projection.recordById documents parsed.entityType id ≠ none ∨ Projection.entityByUri documents uri ≠ none) := by
  have qualifies : ∀ {test : ParsedDocument → Bool}, test document = true → documents.find? test ≠ none := by
    intro test passes absent
    exact find?_eq_none.mp absent document member passes
  cases identity with
  | entity head own =>
    obtain ⟨path, content, made⟩ := complete.parsed document member
    have inContext := (parseDocument_made made).2.2.2 head own
    unfold isLocalUri at inContext
    rw [named] at inContext
    refine ⟨beq_iff_eq.mp inContext, ?_⟩
    right
    unfold Projection.entityByUri
    refine qualifies ?_
    rw [own]
    exact beq_self_eq_true head.uri
  | claim claim _ own same =>
    obtain rfl := Option.some.inj (named.symm.trans (recordUri_made same))
    refine ⟨rfl, .inl ?_⟩
    unfold Projection.recordById
    rw [if_neg (by simp), if_pos (by rw [typed.claim claim own]; rfl)]
    refine qualifies ?_
    rw [own]
    exact beq_self_eq_true claim.id
  | observation observation _ own same =>
    obtain rfl := Option.some.inj (named.symm.trans (recordUri_made same))
    refine ⟨rfl, .inl ?_⟩
    unfold Projection.recordById
    rw [if_neg (by simp), if_neg (by simp), if_pos (by rw [typed.observations observation own]; rfl)]
    exact qualifies (any_eq_true.mpr ⟨observation, own, beq_self_eq_true observation.id⟩)

theorem Complete.lookup
    (owned : (id, uri) ∈ document.identities) :
    projection.getDocumentByUri documents uri = some (some document.sourcePath) := by
  obtain ⟨typed, identities, entities, _, _⟩ := complete.named member
  have identity := identities (id, uri) owned
  obtain ⟨parsed, named, same, spelled⟩ := identity.spelled typed
  obtain ⟨isLocal, present⟩ := complete.present member typed identity named spelled
  unfold getDocumentByUri
  rw [named]
  dsimp only
  rw [if_pos isLocal, same, spelled]
  cases first : Projection.recordById documents parsed.entityType id with
  | some other => rw [complete.recordById member owned first, Option.some_or, Option.map_some]
  | none =>
    cases second : Projection.entityByUri documents uri with
    | some other => rw [complete.entityByUri member owned second, Option.none_or, Option.map_some]
    | none => exact absurd second (present.resolve_left (fun some => some first))

end

end

end

end Projection
end Workctx.Owners
