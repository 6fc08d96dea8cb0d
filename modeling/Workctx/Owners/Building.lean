import Workctx.Owners.Keys

/-! When a rebuild completes: the rows of the accepted documents fit, and refer to what is there. -/

namespace Workctx.Owners
open Workctx.Text Workctx.Concurrent Workctx.Domain Workctx.Migration Workctx.Relational List

/-! The values that a document stores. -/

def Reference.values (reference : Reference) : List Cell :=
  [.text reference.relation, .text reference.target, textOr reference.confidence, timeOr reference.validFrom, timeOr reference.validTo,
    textOr reference.note] ++ reference.sourceObservations.map .text

def EntityHead.values (head : EntityHead) : List Cell :=
  [.text head.id, .text head.entityType, .text head.uri, .text head.title, textOr head.status, textOr head.confidence,
    timeOf head.createdAt, timeOf head.updatedAt] ++ (head.aliases ++ head.tags).map .text

def TaskHead.values (task : TaskHead) : List Cell :=
  [textOr task.parentTask, .text task.rootTask, .text task.priority, .text task.status, textOr task.owner, textOr task.requester,
    timeOr task.dueAt, .text task.nextAction] ++
    (task.waitingOn ++ task.dependencies ++ task.blockers ++ task.sourceObservations).map .text

namespace Projection
variable (projection : Projection)

def claimValues (claim : ClaimHead) : List Cell :=
  [.text claim.id, .text ((recordUri projection.contextId "claim" claim.id).getD ""), .text claim.subject, .text claim.predicate,
    .json (projection.models.jsonText claim.object), timeOf claim.observedAt, timeOr claim.validFrom, timeOr claim.validTo,
    .text claim.status, textOr claim.supersedes, textOr claim.supersededBy, .text claim.confidence,
    .text (claim.predicate ++ " " ++ projection.searchText claim.object)] ++ claim.sourceObservations.map .text

def observationValues (observation : Observation) : List Cell :=
  [.text observation.id, .text ((recordUri projection.contextId "observation" observation.id).getD ""), .text observation.kind,
    .text observation.statement, .text observation.confidence, .text observation.sourceRef, .text observation.locatorType,
    .json (projection.models.jsonText observation.locator), timeOr observation.observedAt, timeOr observation.validFrom,
    timeOr observation.validTo] ++ observation.derivedFrom.map .text ++ observation.related.flatMap Reference.values

def documentValues (configuration : Configuration projection.contextId) (document : ParsedDocument) : List Cell :=
  .text document.sourcePath ::
    ((document.record.entity.toList.flatMap fun head => head.values ++ (canonicalTopics configuration head.topics).map .text ++
      document.references.flatMap Reference.values ++ document.record.task.toList.flatMap TaskHead.values) ++
    document.record.claim.toList.flatMap projection.claimValues ++
    document.record.observations.flatMap projection.observationValues)

variable {projection : Projection} {configuration : Configuration projection.contextId}

variable {values : List String} {known : List (Row Table Cell)}

theorem fits_orderedRows {table : Table} {owner : List (String × Cell)} {column : String}
    (owned : ∀ cell ∈ owner, storable projection.models cell.2 = true)
    (required : ∀ position value, ((requiredColumns table).all fun name =>
      (Row.cell ⟨table, owner ++ [("position", .number position), (column, .text value)]⟩ name).any fun cell => !decide (cell = .null)) = true) :
    (∀ row ∈ orderedRows table owner column values, fits (schemaOf projection.models) row = true) ↔
      ∀ value ∈ values, storable projection.models (.text value) = true := by
  have each : ∀ position value, fits (schemaOf projection.models) ⟨table, owner ++ [("position", .number position), (column, .text value)]⟩ =
      storable projection.models (.text value) := by
    intro position value
    unfold fits
    have own : (owner.all fun cell => (schemaOf projection.models).storable cell.2) = true := all_eq_true.mpr owned
    simp only [all_append, own, all_cons, all_nil, Bool.and_true, Bool.true_and]
    have rest := required position value
    unfold schemaOf
    rw [rest]
    simp [storable]
  unfold orderedRows
  constructor
  · intro all value member
    obtain ⟨position, inside, _⟩ := mem_iff_getElem.mp member
    have found := mk_mem_zipIdx_iff_getElem?.mpr (getElem?_eq_getElem inside)
    have fit := all _ (mem_map_of_mem found)
    rw [each] at fit
    simp_all
  · intro all row member
    obtain ⟨value, inside, rfl⟩ := mem_map.mp member
    rw [each]
    exact all _ (fst_mem_of_mem_zipIdx inside)

@[simp] theorem storable_text (models : Models) (value : String) : storable models (.text value) = models.encodes value := rfl

@[simp] theorem storable_number (models : Models) (value : Nat) : storable models (.number value) = true := rfl

theorem storable_texts {models : Models} :
    (∀ cell ∈ values.map Cell.text, storable models cell = true) ↔ ∀ value ∈ values, models.encodes value = true := by
  rw [forall_mem_map]
  rfl

theorem encodes_literal (models : Models) (text : String) (plain : (text.toList.all fun c => decide (c.toNat < 128)) = true) :
    models.encodes text = true :=
  models.encodes_ascii text fun c member => of_decide_eq_true (all_eq_true.mp plain c member)

section
variable (inContext : projection.models.encodes projection.contextId = true)
include inContext

variable {path : String}

theorem fits_edgeRows {uri : String} {references : List Reference} (source : projection.models.encodes uri = true)
    (place : projection.models.encodes path = true) :
    (∀ row ∈ projection.edgeRows uri path references, fits (schemaOf projection.models) row = true) ↔
      ∀ cell ∈ references.flatMap Reference.values, storable projection.models cell = true := by
  have each : ∀ (reference : Reference) (ordinal : Nat), (∀ row ∈ projection.edgeRow uri path ordinal reference ::
      orderedRows .edgeSourceObservations (edgeOwner uri path ordinal) "observation_uri" reference.sourceObservations,
        fits (schemaOf projection.models) row = true) ↔ ∀ cell ∈ reference.values, storable projection.models cell = true := by
    intro reference ordinal
    rw [forall_mem_cons, fits_orderedRows ?_ fun _ _ => rfl]
    · unfold Reference.values
      rw [forall_mem_append, forall_mem_map]
      refine and_congr_left fun _ => ?_
      simp [fits, schemaOf, edgeOwner, requiredColumns, Row.cell, lookup_cons, lookup_nil, storable, inContext, source, place]
    · simp [edgeOwner, storable, source, place]
  unfold edgeRows
  constructor
  · intro all cell member
    obtain ⟨reference, inside, own⟩ := mem_flatMap.mp member
    obtain ⟨ordinal, bound, same⟩ := mem_iff_getElem.mp inside
    have found : (reference, ordinal) ∈ references.zipIdx := mk_mem_zipIdx_iff_getElem?.mpr (same ▸ getElem?_eq_getElem bound)
    exact (each reference ordinal).mp (fun row here => all row (mem_flatMap.mpr ⟨_, found, here⟩)) cell own
  · intro all row member
    obtain ⟨⟨reference, ordinal⟩, found, here⟩ := mem_flatMap.mp member
    exact (each reference ordinal).mpr (fun cell own => all cell (mem_flatMap.mpr ⟨reference, fst_mem_of_mem_zipIdx found, own⟩)) row here

theorem fits_searchRow {kind id entityType uri title statement : String} :
    fits (schemaOf projection.models) (projection.searchRow kind id entityType uri title statement path) = true ↔
      projection.models.encodes kind = true ∧ projection.models.encodes id = true ∧ projection.models.encodes entityType = true ∧
        projection.models.encodes uri = true ∧ projection.models.encodes title = true ∧ projection.models.encodes statement = true ∧
        projection.models.encodes path = true := by
  simp [fits, schemaOf, requiredColumns, Row.cell, lookup_cons, lookup_nil, storable, inContext]

theorem fits_owned {table : Table} {name column id : String} {values : List String} (own : projection.models.encodes id = true)
    (required : ∀ position value, ((requiredColumns table).all fun required =>
      (Row.cell ⟨table, [projection.context, (name, .text id)] ++ [("position", .number position), (column, .text value)]⟩ required).any
        fun cell => !decide (cell = .null)) = true) :
    (∀ row ∈ orderedRows table [projection.context, (name, .text id)] column values, fits (schemaOf projection.models) row = true) ↔
      ∀ value ∈ values, projection.models.encodes value = true :=
  fits_orderedRows (by simp [storable, inContext, own]) required

theorem fits_entityRows {references : List Reference} {head : EntityHead} (place : projection.models.encodes path = true) :
    (∀ row ∈ projection.entityRows configuration path references head, fits (schemaOf projection.models) row = true) ↔
      ∀ cell ∈ head.values ++ (canonicalTopics configuration head.topics).map .text ++ references.flatMap Reference.values,
        storable projection.models cell = true := by
  have kind := encodes_literal projection.models "entity" (by decide)
  have none := encodes_literal projection.models "" (by decide)
  unfold entityRows EntityHead.values
  dsimp only
  rw [forall_mem_append, forall_mem_append, forall_mem_append, forall_mem_append, forall_mem_cons,
    forall_mem_singleton, fits_searchRow inContext, map_append, forall_mem_append, forall_mem_append,
    forall_mem_append, forall_mem_append, storable_texts]
  by_cases known : projection.models.encodes head.id = true ∧ projection.models.encodes head.uri = true
  · rw [fits_owned inContext known.1 fun _ _ => rfl, fits_owned inContext known.1 fun _ _ => rfl,
      fits_owned inContext place fun _ _ => rfl, fits_edgeRows inContext known.2 place]
    simp [fits, schemaOf, requiredColumns, Row.cell, lookup_cons, lookup_nil, inContext, place, known, kind, none, timeOf]
    tauto
  · refine iff_of_false (fun all => known ⟨all.2.2.1, all.2.2.2.2.1⟩) fun all => known ?_
    have cells := all.1.1.1
    exact ⟨cells (.text head.id) (by simp), cells (.text head.uri) (by simp)⟩

theorem fits_taskRows {id : String} {task : TaskHead} (own : projection.models.encodes id = true) :
    (∀ row ∈ projection.taskRows id task, fits (schemaOf projection.models) row = true) ↔
      ∀ cell ∈ task.values, storable projection.models cell = true := by
  have kind : projection.models.encodes (if task.isSubtask then "subtask" else "parent") = true := by
    split
    · exact encodes_literal _ _ (by decide)
    · exact encodes_literal _ _ (by decide)
  unfold taskRows TaskHead.values
  dsimp only
  simp only [map_append]
  rw [forall_mem_append, forall_mem_append, forall_mem_append, forall_mem_cons, forall_mem_append,
    forall_mem_append, forall_mem_append, forall_mem_append, storable_texts, storable_texts, storable_texts, storable_texts,
    fits_owned inContext own fun _ _ => rfl,
    fits_owned inContext own fun _ _ => rfl, fits_owned inContext own fun _ _ => rfl, fits_owned inContext own fun _ _ => rfl]
  simp [fits, schemaOf, requiredColumns, Row.cell, lookup_cons, lookup_nil, inContext, own, kind]
  tauto

theorem fits_claimRows {claim : ClaimHead} (place : projection.models.encodes path = true) :
    (∀ row ∈ projection.claimRows path claim, fits (schemaOf projection.models) row = true) ↔
      ∀ cell ∈ projection.claimValues claim, storable projection.models cell = true := by
  have kind := encodes_literal projection.models "claim" (by decide)
  have none := encodes_literal projection.models "" (by decide)
  unfold claimRows claimValues
  dsimp only
  rw [forall_mem_append, forall_mem_cons, forall_mem_singleton, fits_searchRow inContext, forall_mem_append, storable_texts]
  by_cases own : projection.models.encodes claim.id = true
  · rw [fits_owned inContext own fun _ _ => rfl]
    simp [fits, schemaOf, requiredColumns, Row.cell, lookup_cons, lookup_nil, inContext, place, own, kind, none, timeOf]
    tauto
  · exact iff_of_false (fun all => own all.2.2.1) fun all => own (all.1 (.text claim.id) (by simp))

theorem fits_observationRows {parent : Option String} {observation : Observation}
    (place : projection.models.encodes path = true) (above : ∀ uri ∈ parent, projection.models.encodes uri = true) :
    (∀ row ∈ projection.observationRows path parent observation, fits (schemaOf projection.models) row = true) ↔
      ∀ cell ∈ projection.observationValues observation, storable projection.models cell = true := by
  have kind := encodes_literal projection.models "observation" (by decide)
  have none := encodes_literal projection.models "" (by decide)
  have parent' : storable projection.models (textOr parent) = true := by
    cases parent with
    | none => rfl
    | some uri => exact above uri rfl
  unfold observationRows observationValues
  dsimp only
  rw [forall_mem_append, forall_mem_append, forall_mem_cons, forall_mem_singleton, fits_searchRow inContext,
    forall_mem_append, forall_mem_append, storable_texts]
  by_cases own : projection.models.encodes observation.id = true ∧
      projection.models.encodes ((recordUri projection.contextId "observation" observation.id).getD "") = true
  · rw [fits_owned inContext own.1 fun _ _ => rfl, fits_edgeRows inContext own.2 place]
    simp [fits, schemaOf, requiredColumns, Row.cell, lookup_cons, lookup_nil, inContext, place, own, kind, none, parent']
    tauto
  · refine iff_of_false (fun all => own ⟨all.2.2.1, all.2.2.2.2.1⟩) fun all => own ?_
    have cells := all.1.1
    exact ⟨cells (.text observation.id) (by simp), cells (.text _) (by simp)⟩

theorem fits_documentRows {document : ParsedDocument} (place : projection.models.encodes document.sourcePath = true) :
    (∀ row ∈ projection.documentRows configuration document, fits (schemaOf projection.models) row = true) ↔
      ∀ cell ∈ projection.documentValues configuration document, storable projection.models cell = true := by
  unfold documentRows documentValues
  dsimp only
  rw [forall_mem_append, forall_mem_append, forall_mem_append, forall_mem_cons, forall_mem_append,
    forall_mem_append]
  simp only [forall_mem_flatMap, storable_text, place, true_and]
  have claims : (∀ claim ∈ document.record.claim.toList, ∀ row ∈ projection.claimRows document.sourcePath claim,
      fits (schemaOf projection.models) row = true) ↔ ∀ claim ∈ document.record.claim.toList, ∀ cell ∈ projection.claimValues claim,
        storable projection.models cell = true := forall₂_congr fun claim _ => fits_claimRows inContext place
  rw [claims]
  cases own : document.record.entity with
  | none =>
    simp only [Option.toList_none, not_mem_nil, false_implies, implies_true, true_and, Option.map_none]
    refine and_congr_right fun _ => forall₂_congr fun observation _ => ?_
    exact fits_observationRows inContext place (by simp)
  | some head =>
    simp only [Option.toList_some, mem_singleton, forall_eq, Option.map_some]
    have split : (∀ cell ∈ head.values ++ (canonicalTopics configuration head.topics).map .text ++
        document.references.flatMap Reference.values ++ document.record.task.toList.flatMap TaskHead.values,
          storable projection.models cell = true) ↔
        (∀ cell ∈ head.values ++ (canonicalTopics configuration head.topics).map .text ++ document.references.flatMap Reference.values,
          storable projection.models cell = true) ∧
        ∀ task ∈ document.record.task.toList, ∀ cell ∈ task.values, storable projection.models cell = true := by
      rw [forall_mem_append, forall_mem_flatMap]
    rw [fits_entityRows inContext place, split]
    by_cases known : projection.models.encodes head.id = true ∧ projection.models.encodes head.uri = true
    · have tasks : (∀ task ∈ document.record.task.toList, ∀ row ∈ projection.taskRows head.id task,
          fits (schemaOf projection.models) row = true) ↔ ∀ task ∈ document.record.task.toList, ∀ cell ∈ task.values,
            storable projection.models cell = true := forall₂_congr fun task _ => fits_taskRows inContext known.1
      have observations : (∀ observation ∈ document.record.observations, ∀ row ∈ projection.observationRows document.sourcePath
          (some head.uri) observation, fits (schemaOf projection.models) row = true) ↔ ∀ observation ∈ document.record.observations,
            ∀ cell ∈ projection.observationValues observation, storable projection.models cell = true := by
        refine forall₂_congr fun observation _ => fits_observationRows inContext place ?_
        intro uri same
        cases same
        exact known.2
      rw [tasks, observations]
    · have lost : ¬∀ cell ∈ head.values ++ (canonicalTopics configuration head.topics).map .text ++
          document.references.flatMap Reference.values, storable projection.models cell = true := by
        intro cells
        exact known ⟨cells (.text head.id) (by simp [EntityHead.values]), cells (.text head.uri) (by simp [EntityHead.values])⟩
      exact iff_of_false (fun all => lost all.1.1.1) fun all => lost all.1.1.1

end

/-! Foreign keys. -/

theorem founded_orderedRows {other : Row Table Cell} {table : Table} {owner : List (String × Cell)}
    {column : String} {columns key : List String} (present : other ∈ known)
    (referenced : tableReferences table = [(columns, other.table, key)])
    (same : ∀ position value, other.project key = Row.project ⟨table, owner ++ [("position", .number position), (column, .text value)]⟩ columns) :
    Founded (schemaOf projection.models) known (orderedRows table owner column values) := by
  refine founded_of_refers fun row member reference own => ?_
  obtain ⟨value, _, rfl⟩ := mem_map.mp member
  have one : reference ∈ tableReferences table := own
  rw [referenced] at one
  obtain rfl := mem_singleton.mp one
  unfold refers
  rw [any_eq_true]
  refine ⟨other, present, ?_⟩
  rw [Bool.and_eq_true]
  exact ⟨decide_eq_true rfl, decide_eq_true (same _ _)⟩

theorem founded_free {rows : List (Row Table Cell)} (free : ∀ row ∈ rows, tableReferences row.table = []) :
    Founded (schemaOf projection.models) known rows := by
  refine founded_of_refers fun row member reference own => ?_
  have one : reference ∈ tableReferences row.table := own
  rw [free row member] at one
  exact absurd one (by simp)

theorem founded_edgeRows {uri path : String} {references : List Reference} :
    Founded (schemaOf projection.models) known (projection.edgeRows uri path references) := by
  refine founded_flatMap fun reference _ => ?_
  refine ⟨by simp [schemaOf, tableReferences], ?_⟩
  exact founded_orderedRows (mem_singleton.mpr rfl) rfl fun _ _ => rfl

theorem founded_entityRows {path : String} {references : List Reference} {head : EntityHead} :
    Founded (schemaOf projection.models) known (projection.entityRows configuration path references head) := by
  unfold entityRows
  dsimp only
  rw [cons_append, cons_append, cons_append, cons_append]
  refine ⟨by simp [schemaOf, tableReferences], ?_⟩
  rw [founded_append, founded_append, founded_append, founded_append]
  refine ⟨⟨⟨⟨?_, ?_⟩, ?_⟩, founded_edgeRows⟩, founded_free (by simp [tableReferences])⟩
  · exact founded_orderedRows (mem_append_right _ (mem_singleton.mpr rfl)) rfl fun _ _ => rfl
  · exact founded_orderedRows (mem_append_left _ (mem_append_right _ (mem_singleton.mpr rfl))) rfl fun _ _ => rfl
  · refine founded_free fun row member => ?_
    obtain ⟨_, _, rfl⟩ := mem_map.mp member
    rfl

theorem founded_taskRows {other : Row Table Cell} {id : String} {task : TaskHead} (present : other ∈ known)
    (entity : other.table = .entities)
    (same : other.project ["context_id", "id"] = [some (.text projection.contextId), some (.text id)]) :
    Founded (schemaOf projection.models) known (projection.taskRows id task) := by
  unfold taskRows
  dsimp only
  rw [cons_append, cons_append, cons_append]
  refine ⟨?_, ?_⟩
  · intro reference own
    obtain rfl := mem_singleton.mp own
    unfold refers
    rw [any_eq_true]
    refine ⟨other, present, ?_⟩
    rw [Bool.and_eq_true]
    exact ⟨decide_eq_true entity, decide_eq_true same⟩
  · rw [founded_append, founded_append, founded_append]
    refine ⟨⟨⟨?_, ?_⟩, ?_⟩, ?_⟩
    · exact founded_orderedRows (mem_append_right _ (mem_singleton.mpr rfl)) rfl fun _ _ => rfl
    all_goals exact founded_orderedRows (mem_append_left _ (mem_append_right _ (mem_singleton.mpr rfl))) rfl fun _ _ => rfl

theorem founded_documentRows {document : ParsedDocument} :
    Founded (schemaOf projection.models) known (projection.documentRows configuration document) := by
  unfold documentRows
  dsimp only
  rw [founded_append, founded_append, founded_append]
  refine ⟨⟨⟨founded_flatMap fun _ _ => founded_entityRows, ?_⟩, ?_⟩, ?_⟩
  · cases document.record.entity with
    | none => trivial
    | some head =>
      cases document.record.task with
      | none => trivial
      | some task =>
        simp only [Option.toList_some, flatMap_singleton]
        refine founded_taskRows (mem_append_right _ (mem_append_left _ (mem_append_left _ (mem_append_left _
          (mem_append_left _ mem_cons_self))))) rfl rfl
  · refine founded_flatMap fun claim _ => ?_
    unfold claimRows
    dsimp only
    rw [cons_append]
    refine ⟨by simp [schemaOf, tableReferences], ?_⟩
    rw [founded_append]
    refine ⟨?_, founded_free (by simp [tableReferences])⟩
    exact founded_orderedRows (mem_singleton.mpr rfl) rfl fun _ _ => rfl
  · refine founded_flatMap fun observation _ => ?_
    unfold observationRows
    dsimp only
    rw [cons_append, cons_append]
    refine ⟨by simp [schemaOf, tableReferences], ?_⟩
    rw [founded_append, founded_append]
    refine ⟨⟨?_, founded_edgeRows⟩, founded_free (by simp [tableReferences])⟩
    exact founded_orderedRows (mem_singleton.mpr rfl) rfl fun _ _ => rfl

/-! The rebuild. -/

theorem rebuild_accounts {files : Directory String Bytes} (unique : (files.map Prod.fst).Nodup) {path : String} {content : Bytes}
    (found : (path, content) ∈ files) (indexed : isIndexedPath path = true) :
    (∃ document ∈ (projection.rebuild files).1, document.sourcePath = path) ↔ path ∉ (projection.rebuild files).2 := by
  have sifted : Sifted projection [] (sources files) _ _ := parseSources_sifted
  have source : (path, content) ∈ sources files := mem_sources.mpr ⟨found, indexed⟩
  unfold rebuild
  dsimp only
  constructor
  · rintro ⟨document, member, rfl⟩ listed
    obtain ⟨member, kept⟩ := mem_filter.mp member
    rcases mem_append.mp listed with skipped | rejected
    · obtain ⟨content', other, why⟩ := sifted.reason (sources_distinct unique) _ skipped
      obtain ⟨place, content'', inside, made⟩ := sifted.made document member
      obtain ⟨raw, parsed⟩ := parseDocument_iff.mp made
      obtain rfl := parsed.path
      obtain rfl : content'' = content' := Option.some.inj ((Directory.get_of_mem (sources_distinct unique) inside).symm.trans
        (Directory.get_of_mem (sources_distinct unique) other))
      rcases why document made with ⟨_, _, seen⟩ | ⟨owner, own, apart, identity, mine, shared⟩
      · exact absurd seen (by simp)
      · have different := sifted.apart.forall own member fun same => apart (congrArg ParsedDocument.sourcePath same)
        rcases shared with ids | uris
        · obtain ⟨other, theirs, same⟩ := mem_map.mp ids
          exact different.ids other.1 other.2 identity.2 theirs (same ▸ mine)
        · obtain ⟨other, theirs, same⟩ := mem_map.mp uris
          exact different.uris other.2 other.1 identity.1 theirs (same ▸ mine)
    · rw [contains_iff_mem.mpr rejected] at kept
      exact absurd kept (by simp)
  · intro outside
    rw [mem_append, not_or] at outside
    obtain ⟨document, member, made⟩ := sifted.kept path content source outside.1
    obtain ⟨raw, parsed⟩ := parseDocument_iff.mp made
    refine ⟨document, mem_filter.mpr ⟨member, ?_⟩, parsed.path⟩
    rw [parsed.path, Bool.not_eq_true', Bool.eq_false_iff]
    exact fun listed => outside.2 (contains_iff_mem.mp listed)

theorem insertAll_documentRows {documents : List ParsedDocument} (distinct : Distinct projection documents) {seen indexed skipped : Nat} :
    (∃ rows, insertAll (schemaOf projection.models) [] (projection.metadataRow configuration seen indexed skipped ::
        documents.flatMap (projection.documentRows configuration)) = some rows) ↔
      ∀ row ∈ projection.metadataRow configuration seen indexed skipped :: documents.flatMap (projection.documentRows configuration),
        fits (schemaOf projection.models) row = true := by
  constructor
  · rintro ⟨rows, made⟩
    rw [insertAll_eq made] at made
    exact (insertAll_iff.mp made).1
  · intro fitting
    refine ⟨_, insertAll_iff.mpr ⟨fitting, by simp, ?_, ?_⟩⟩
    · refine pairwise_of_keys fun table key member => ?_
      rw [filter_cons]
      by_cases metadata : table = .projectionMetadata
      · subst metadata
        have none : ((documents.flatMap (projection.documentRows configuration)).filter fun row =>
            decide (row.table = .projectionMetadata)) = [] := by
          simp [filter_flatMap]
        rw [none]
        split <;> simp
      · rw [if_neg (fun same => metadata (of_decide_eq_true same).symm)]
        exact rowsIn_keys distinct table metadata key member
    · refine ⟨by simp [metadataRow, schemaOf, tableReferences], ?_⟩
      exact founded_flatMap fun document _ => founded_documentRows

theorem encodes_contextId (configuration : Configuration projection.contextId) : projection.models.encodes projection.contextId = true := by
  refine projection.models.encodes_ascii _ fun c member => ?_
  have range := isSlugChar_range ((matchesSlug_chars configuration.valid).1 c member)
  omega

theorem build_iff {files : Directory String Bytes} (unique : (files.map Prod.fst).Nodup) :
    (∃ rows, projection.build configuration files = some rows) ↔
      storable projection.models (timeOf configuration.updatedAt) = true ∧
        (∀ path content, (path, content) ∈ files → isIndexedPath path = true → projection.models.encodes path = true) ∧
        ∀ document ∈ (projection.rebuild files).1, ∀ cell ∈ projection.documentValues configuration document,
          storable projection.models cell = true := by
  have inContext := encodes_contextId configuration
  have paths : ((sources files).all fun source => projection.models.encodes source.1) = true ↔
      ∀ path content, (path, content) ∈ files → isIndexedPath path = true → projection.models.encodes path = true := by
    rw [all_eq_true]
    constructor
    · exact fun all path content found indexed => all (path, content) (mem_sources.mpr ⟨found, indexed⟩)
    · rintro all ⟨path, content⟩ member
      obtain ⟨found, indexed⟩ := mem_sources.mp member
      exact all path content found indexed
  have metadata : ∀ seen indexed skipped, fits (schemaOf projection.models) (projection.metadataRow configuration seen indexed skipped) = true ↔
      storable projection.models (timeOf configuration.updatedAt) = true := by
    intro seen indexed skipped
    simp [fits, schemaOf, metadataRow, requiredColumns, Row.cell, lookup_cons, lookup_nil, inContext, timeOf]
  unfold build
  dsimp only
  by_cases encoded : ((sources files).all fun source => projection.models.encodes source.1) = true
  · rw [if_pos encoded, insertAll_documentRows (rebuild_distinct unique), forall_mem_cons, metadata, forall_mem_flatMap]
    refine and_congr_right fun _ => ?_
    rw [and_iff_right (paths.mp encoded)]
    refine forall₂_congr fun document member => fits_documentRows inContext ?_
    obtain ⟨content, found, indexed, _⟩ := mem_rebuild member
    exact paths.mp encoded _ content found indexed
  · rw [if_neg encoded]
    exact iff_of_false (by simp) fun facts => encoded (paths.mpr facts.2.1)

end Projection

/-- A rebuild completes, with each document indexed or skipped, if and only if each value of an accepted document can be stored. -/
theorem build_completes {projection : Projection} {configuration : Configuration projection.contextId} {files : Directory String Bytes}
    (unique : (files.map Prod.fst).Nodup) :
    ((∃ rows, projection.build configuration files = some rows) ∧ ∀ path content, (path, content) ∈ files → isIndexedPath path = true →
      ((∃ document ∈ (projection.rebuild files).1, document.sourcePath = path) ↔ path ∉ (projection.rebuild files).2)) ↔
    storable projection.models (timeOf configuration.updatedAt) = true ∧
      (∀ path content, (path, content) ∈ files → isIndexedPath path = true → projection.models.encodes path = true) ∧
      ∀ document ∈ (projection.rebuild files).1, ∀ cell ∈ projection.documentValues configuration document,
        storable projection.models cell = true := by
  rw [← Projection.build_iff unique]
  exact and_iff_left fun path content found indexed => Projection.rebuild_accounts unique found indexed

/-! A document of the first hour of the calendar, in a zone to the east. -/

namespace Dawn

def note : Bytes :=
  encodeUtf8 "---\n".toList ++ encodeUtf8 ("schema_version: 1\nid: ana\nentity_type: person\ntitle: Ana\nuri: workctx://demo/person/ana\n" ++
    "created_at: 0001-01-01T00:00:00+01:00\nupdated_at: 2026-01-01T00:00:00Z\n---\n").toList

def frontmatter : Frontmatter :=
  [("id", .string "ana"), ("entity_type", .string "person"), ("uri", .string "workctx://demo/person/ana")]

def head : EntityHead where
  id := "ana"
  entityType := "person"
  uri := "workctx://demo/person/ana"
  title := "Ana"
  aliases := []
  status := none
  confidence := none
  tags := []
  topics := []
  createdAt := ⟨Validation.earliest - 3600000000, 3600⟩
  updatedAt := ⟨1767225600000000, 0⟩

def readEntity (_ : Frontmatter) : Option EntityHead := some head

theorem readEntity_uri (raw : Frontmatter) (read : EntityHead) (made : readEntity raw = some read) :
    ∃ contextId, validUri ⟨contextId, read.entityType, read.id⟩ = true ∧ read.uri = uriText ⟨contextId, read.entityType, read.id⟩ := by
  cases made
  exact ⟨"demo", by decide⟩

theorem readEntity_lists (raw : Frontmatter) (read : EntityHead) (made : readEntity raw = some read) : ∀ values ∈ read.lists, values.Nodup := by
  cases made
  simp [EntityHead.lists, head]

def absent {α β : Type} (_ : α) : Option β := none

def models : Models where
  parseUri := parseUriText
  parse_uriText := @parseUriText_uriText
  frontmatter := fun _ => some frontmatter
  entity := readEntity
  task := absent
  entity_uri := readEntity_uri
  task_uri := fun _ _ => nofun
  claim := absent
  claim_id := fun _ _ => nofun
  observation := absent
  standaloneObservation := absent
  observation_id := fun _ _ => nofun
  standaloneObservation_id := fun _ _ => nofun
  taskHead := fun _ => ⟨false, none, "", "P2", "ready", none, none, [], none, "", [], [], []⟩
  task_place := fun _ _ => nofun
  typedReference := absent
  entity_lists := readEntity_lists
  task_lists := fun _ _ => nofun
  claim_lists := fun _ _ => nofun
  observation_lists := fun _ _ => nofun
  standaloneObservation_lists := fun _ _ => nofun
  typedReference_lists := fun _ _ => nofun
  durable := fun _ => false
  artifact := fun _ => absent
  encodes := fun _ => true
  encodes_ascii := fun _ _ => rfl
  jsonText := absent

def projection : Projection := ⟨models, "demo"⟩

def configuration : Configuration projection.contextId where
  valid := by decide
  updatedAt := ⟨1767225600000000, 0⟩
  unicode := Topics.sampleUnicode
  topics := []

def files : Directory String Bytes := [("02_knowledge/people/ana.md", note)]

theorem unique : (files.map Prod.fst).Nodup := by decide

theorem refused : projection.build configuration files = none := by decide +kernel

end Dawn

/-- The document is accepted, and its creation is before the calendar in UTC. -/
theorem dawn_fails : (Dawn.projection.rebuild Dawn.files).2 = [] ∧ Dawn.projection.build Dawn.configuration Dawn.files = none := by
  constructor
  · decide +kernel
  · exact Dawn.refused

theorem build_completes_dawn : ¬∀ document ∈ (Dawn.projection.rebuild Dawn.files).1,
    ∀ cell ∈ Dawn.projection.documentValues Dawn.configuration document, storable Dawn.projection.models cell = true := by
  intro stored
  obtain ⟨⟨rows, made⟩, _⟩ := (build_completes Dawn.unique).mpr ⟨by decide, fun _ _ _ _ => rfl, stored⟩
  exact absurd (made.symm.trans Dawn.refused) (by simp)

end Workctx.Owners
