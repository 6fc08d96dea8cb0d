import Workctx.Owners.Tables

/-! The keys of the tables: the rows of the accepted documents have distinct ones. -/

namespace Workctx.Owners
open Workctx.Text Workctx.Concurrent Workctx.Domain Workctx.Migration Workctx.Relational List

theorem sublist_flatMap {α β : Type} {f g : α → List β} (each : ∀ item, (g item).Sublist (f item)) (items : List α) :
    (items.flatMap g).Sublist (items.flatMap f) := by
  induction items with
  | nil => exact List.Sublist.slnil
  | cons item rest ih => exact (each item).append ih

/-! The identities of the accepted documents. -/

theorem identities_parts {contextId : String} {record : Record} {identities : List (String × String)}
    (made : record.identities contextId = some identities) :
    identities.map Prod.fst = record.entity.toList.map EntityHead.id ++ record.claim.toList.map ClaimHead.id ++
        record.observations.map Observation.id ∧
      identities.map Prod.snd = record.entity.toList.map EntityHead.uri ++
        (record.claim.toList.map fun claim => (recordUri contextId "claim" claim.id).getD "") ++
        record.observations.map fun observation => (recordUri contextId "observation" observation.id).getD "" := by
  have part : ∀ {α : Type} (entityType : String) (id : α → String) (items : List α) (pairs : List (String × String)),
      (items.mapM fun item => (recordUri contextId entityType (id item)).map fun uri => (id item, uri)) = some pairs →
      pairs.map Prod.fst = items.map id ∧ pairs.map Prod.snd = items.map fun item => (recordUri contextId entityType (id item)).getD "" := by
    intro α entityType id items
    induction items with
    | nil =>
      intro pairs read
      obtain rfl : pairs = [] := by simpa using read.symm
      exact ⟨rfl, rfl⟩
    | cons item rest ih =>
      intro pairs read
      rw [mapM_cons] at read
      simp only [Option.bind_eq_bind, Option.pure_def, Option.bind_eq_some_iff, Option.map_eq_some_iff, Option.some.injEq] at read
      obtain ⟨_, ⟨uri, named, rfl⟩, others, below, rfl⟩ := read
      obtain ⟨ids, uris⟩ := ih others below
      exact ⟨by rw [map_cons, map_cons, ids], by rw [map_cons, map_cons, uris, named]; rfl⟩
  unfold Record.identities at made
  simp only [Option.bind_eq_bind, Option.bind_eq_some_iff, Option.some.injEq] at made
  obtain ⟨claims, claimed, observations, observed, rfl⟩ := made
  obtain ⟨claimIds, claimUris⟩ := part "claim" ClaimHead.id _ _ claimed
  obtain ⟨observationIds, observationUris⟩ := part "observation" Observation.id _ _ observed
  constructor
  · rw [map_append, map_append, claimIds, observationIds, map_map]
    rfl
  · rw [map_append, map_append, claimUris, observationUris, map_map]
    rfl

theorem readRecord_nonempty {models : Models} {raw : Frontmatter} {record : Record} (made : readRecord models raw = some record) :
    record.entity.toList.map EntityHead.id ++ record.claim.toList.map ClaimHead.id ++ record.observations.map Observation.id ≠ [] := by
  unfold readRecord at made
  split at made
  · split at made
    · exact absurd made (by simp)
    · split at made
      · obtain ⟨claim, _, rfl⟩ := Option.map_eq_some_iff.mp made
        simp
      · split at made
        · obtain ⟨observation, _, rfl⟩ := Option.map_eq_some_iff.mp made
          simp
        · exact absurd made (by simp)
  · obtain ⟨head, _, more⟩ := Option.bind_eq_some_iff.mp made
    obtain ⟨observations, _, done⟩ := Option.bind_eq_some_iff.mp more
    cases done
    simp

namespace Projection
variable {projection : Projection} {configuration : Configuration projection.contextId}

/-- What the database relies on: identifiers, URIs, and paths are distinct. -/
structure Distinct (projection : Projection) (documents : List ParsedDocument) : Prop where
  parsed : ∀ document ∈ documents, ∃ content raw, Parsed projection document.sourcePath content document raw
  paths : (documents.map ParsedDocument.sourcePath).Nodup
  ids : (documents.flatMap fun document => document.identities.map Prod.fst).Nodup
  uris : (documents.flatMap fun document => document.identities.map Prod.snd).Nodup

theorem rebuild_distinct {files : Directory String Bytes} (unique : (files.map Prod.fst).Nodup) :
    Distinct projection (projection.rebuild files).1 := by
  have parsed : ∀ document ∈ (projection.rebuild files).1, ∃ content raw,
      (document.sourcePath, content) ∈ files ∧ Parsed projection document.sourcePath content document raw := by
    intro document member
    obtain ⟨content, found, _, made⟩ := mem_rebuild member
    obtain ⟨raw, parsed⟩ := parseDocument_iff.mp made
    exact ⟨content, raw, found, parsed⟩
  have apart : (projection.rebuild files).1.Pairwise Apart := by
    have sifted : Sifted projection [] (sources files) _ _ := parseSources_sifted
    unfold rebuild
    exact sifted.apart.sublist filter_sublist
  refine ⟨?_, ?_, ?_, ?_⟩
  · intro document member
    obtain ⟨content, raw, _, own⟩ := parsed document member
    exact ⟨content, raw, own⟩
  · refine pairwise_map.mpr (apart.imp_of_mem ?_)
    intro one two member also different same
    obtain ⟨content, raw, found, first⟩ := parsed one member
    obtain ⟨content', raw', found', second⟩ := parsed two also
    rw [← same] at found' second
    obtain rfl : content = content' := Option.some.inj ((Directory.get_of_mem unique found).symm.trans (Directory.get_of_mem unique found'))
    have equal : one = two := Option.some.inj ((parseDocument_iff.mpr ⟨raw, first⟩).symm.trans (parseDocument_iff.mpr ⟨raw', second⟩))
    have nonempty := readRecord_nonempty first.record
    rw [← (identities_parts first.identities).1] at nonempty
    obtain ⟨identity, own⟩ : ∃ identity, identity ∈ one.identities :=
      exists_mem_of_ne_nil _ fun none => nonempty (by rw [none]; rfl)
    exact different.ids identity.1 identity.2 identity.2 own (equal ▸ own)
  · refine nodup_flatMap.mpr ⟨fun document member => (parsed document member).choose_spec.choose_spec.2.apart, apart.imp ?_⟩
    intro one two different id member also
    obtain ⟨identity, own, rfl⟩ := mem_map.mp member
    obtain ⟨other, own', same⟩ := mem_map.mp also
    exact different.ids identity.1 identity.2 other.2 own (same ▸ own')
  · refine nodup_flatMap.mpr ⟨?_, apart.imp ?_⟩
    · intro document member
      obtain ⟨content, raw, _, own⟩ := parsed document member
      have typed := readRecord_typed own.record
      have named := (identities_made own.identities).1
      refine (List.Nodup.of_map _ own.apart).map_on ?_
      intro one member two also same
      obtain ⟨uri, first, id, _⟩ := (named one member).spelled typed
      obtain ⟨uri', second, id', _⟩ := (named two also).spelled typed
      rw [same] at first
      obtain rfl := Option.some.inj (first.symm.trans second)
      exact Prod.ext (id.symm.trans id') same
    · intro one two different uri member also
      obtain ⟨identity, own, rfl⟩ := mem_map.mp member
      obtain ⟨other, own', same⟩ := mem_map.mp also
      exact different.uris identity.2 identity.1 other.1 own (same ▸ own')

@[simp] theorem filter_orderedRows (table one : Table) (owner : List (String × Cell)) (column : String) (values : List String) :
    ((orderedRows table owner column values).filter fun row => decide (row.table = one)) =
      if table = one then orderedRows table owner column values else [] := by
  unfold orderedRows
  split
  · next same =>
    exact filter_eq_self.mpr fun row member => by
      obtain ⟨_, _, rfl⟩ := mem_map.mp member
      exact decide_eq_true same
  · next differ =>
    refine filter_eq_nil_iff.mpr fun row member => ?_
    obtain ⟨_, _, rfl⟩ := mem_map.mp member
    simpa using differ

@[simp] theorem filter_edgeRows (one : Table) (uri path : String) (references : List Reference) :
    ((projection.edgeRows uri path references).filter fun row => decide (row.table = one)) =
      if one = .edges then references.zipIdx.map fun reference => projection.edgeRow uri path reference.2 reference.1
      else if one = .edgeSourceObservations then references.zipIdx.flatMap fun reference =>
        orderedRows .edgeSourceObservations (edgeOwner uri path reference.2) "observation_uri" reference.1.sourceObservations
      else [] := by
  unfold edgeRows
  rw [filter_flatMap]
  cases one <;> simp [filter_orderedRows, map_eq_flatMap]


theorem ordered_distinct {β : Type} (table : Table) (owners : List (β × List String)) (ownerOf : β → List (String × Cell))
    (columns : List String) (column : String) (distinct : (owners.map Prod.fst).Nodup) (unique : ∀ owner ∈ owners, owner.2.Nodup)
    (named : ∀ one two, (columns.map fun name => (ownerOf one).lookup name) = (columns.map fun name => (ownerOf two).lookup name) → one = two)
    (own : ∀ one, ∀ name ∈ columns, ((ownerOf one).lookup name).isSome = true)
    (fresh : ∀ one, (ownerOf one).lookup "position" = none ∧ (ownerOf one).lookup column = none) (apart : "position" ≠ column) :
    let rows := owners.flatMap fun owner => orderedRows table (ownerOf owner.1) column owner.2
    (rows.map fun row => row.project (columns ++ ["position"])).Nodup ∧ (rows.map fun row => row.project (columns ++ [column])).Nodup := by
  have names : ∀ one rest, columns.map (Row.cell ⟨table, ownerOf one ++ rest⟩) = columns.map fun name => (ownerOf one).lookup name := by
    intro one rest
    refine map_congr_left fun name member => ?_
    rw [Row.cell, lookup_append]
    obtain ⟨value, found⟩ := Option.isSome_iff_exists.mp (own one name member)
    rw [found]
    rfl
  have position : ∀ one number value, Row.cell ⟨table, ownerOf one ++ [("position", .number number), (column, .text value)]⟩ "position" =
      some (Cell.number number) := by
    intro one number value
    rw [Row.cell, lookup_append, (fresh one).1]
    rfl
  have last : ∀ one number value, Row.cell ⟨table, ownerOf one ++ [("position", .number number), (column, .text value)]⟩ column =
      some (Cell.text value) := by
    intro one number value
    rw [Row.cell, lookup_append, (fresh one).2]
    simp [lookup_cons, beq_false_of_ne apart.symm]
  constructor
  · have keys := (entries_positions distinct).map (f := fun entry => (columns.map fun name => (ownerOf entry.1).lookup name) ++
      [some (Cell.number entry.2)]) ?_
    · simpa [entries, orderedRows, Row.project, map_flatMap, Function.comp_def, names, position] using keys
    · intro one two same
      obtain ⟨first, last⟩ := append_inj' same rfl
      exact Prod.ext (named _ _ first) (by simpa using last)
  · have keys := (entries_values distinct unique).map (f := fun entry => (columns.map fun name => (ownerOf entry.1).lookup name) ++
      [some (Cell.text entry.2)]) ?_
    · simpa [entries, orderedRows, Row.project, map_flatMap, Function.comp_def, names, last] using keys
    · intro one two same
      obtain ⟨first, last⟩ := append_inj' same rfl
      exact Prod.ext (named _ _ first) (by simpa using last)

theorem Distinct.recordIds {documents : List ParsedDocument} (distinct : Distinct projection documents) :
    (documents.flatMap fun document => document.record.entity.toList.map EntityHead.id ++ document.record.claim.toList.map ClaimHead.id ++
      document.record.observations.map Observation.id).Nodup := by
  have ids := distinct.ids
  rwa [flatMap_congr fun document member => ?_] at ids
  obtain ⟨_, _, own⟩ := distinct.parsed document member
  exact (identities_parts own.identities).1

theorem Distinct.recordUris {documents : List ParsedDocument} (distinct : Distinct projection documents) :
    (documents.flatMap fun document => document.record.entity.toList.map EntityHead.uri ++
      (document.record.claim.toList.map fun claim => (recordUri projection.contextId "claim" claim.id).getD "") ++
      document.record.observations.map fun observation => (recordUri projection.contextId "observation" observation.id).getD "").Nodup := by
  have uris := distinct.uris
  rwa [flatMap_congr fun document member => ?_] at uris
  obtain ⟨_, _, own⟩ := distinct.parsed document member
  exact (identities_parts own.identities).2

theorem Parsed.lists {path : String} {content : Bytes} {document : ParsedDocument} {raw : Frontmatter}
    (parsed : Parsed projection path content document raw) :
    (∀ head, document.record.entity = some head → ∀ values ∈ head.lists, values.Nodup) ∧
      (∀ task, document.record.task = some task → ∀ values ∈ task.lists, values.Nodup) ∧
      (∀ claim, document.record.claim = some claim → claim.sourceObservations.Nodup) ∧
      (∀ observation ∈ document.record.observations, ∀ values ∈ observation.lists, values.Nodup) ∧
      ∀ reference ∈ document.references, reference.sourceObservations.Nodup := by
  have made := parsed.record
  have referred : ∀ reference ∈ document.references, reference.sourceObservations.Nodup := by
    have read := parsed.references
    unfold parseReferences at read
    split at read
    · unfold parseEntityReferences at read
      split at read
      · obtain ⟨read, _⟩ := Option.filter_eq_some_iff.mp read
        intro reference member
        obtain ⟨item, _, accepted⟩ := (mapM_some_mem read).1 reference member
        exact projection.models.typedReference_lists _ _ accepted
      · exact absurd read (by simp)
    · rw [← Option.some.inj read]
      simp
  unfold readRecord at made
  split at made
  · split at made
    · exact absurd made (by simp)
    · split at made
      · obtain ⟨claim, accepted, same⟩ := Option.map_eq_some_iff.mp made
        rw [← same]
        refine ⟨by simp, by simp, ?_, by simp, referred⟩
        intro other own
        cases own
        exact projection.models.claim_lists _ _ accepted
      · split at made
        · obtain ⟨observation, accepted, same⟩ := Option.map_eq_some_iff.mp made
          rw [← same]
          refine ⟨by simp, by simp, by simp, ?_, referred⟩
          intro other own
          obtain rfl := mem_singleton.mp own
          exact projection.models.standaloneObservation_lists _ _ accepted
        · exact absurd made (by simp)
  · next value _ =>
    obtain ⟨head, read, more⟩ := Option.bind_eq_some_iff.mp made
    obtain ⟨observations, embedded, done⟩ := Option.bind_eq_some_iff.mp more
    rw [← Option.some.inj done]
    unfold readHead at read
    refine ⟨?_, ?_, by simp, ?_, referred⟩
    · intro other own
      cases own
      split at read
      · exact fun values member => projection.models.task_lists _ _ read values (mem_append_left _ member)
      · exact projection.models.entity_lists _ _ read
    · intro task own
      dsimp only at own
      split at own
      · next typed =>
        cases own
        rw [if_pos typed] at read
        exact fun values member => projection.models.task_lists _ _ read values (mem_append_right _ member)
      · exact absurd own (by simp)
    · intro observation member
      unfold embeddedObservations at embedded
      split at embedded
      · obtain ⟨item, _, accepted⟩ := (mapM_some_mem embedded).1 observation member
        exact projection.models.observation_lists _ _ (Option.filter_eq_some_iff.mp accepted).1
      · exact absurd embedded (by simp)

def edgeOwners (projection : Projection) (documents : List ParsedDocument) : List ((String × String) × List Reference) :=
  documents.flatMap fun document =>
    (document.record.entity.toList.map fun head => ((head.uri, document.sourcePath), document.references)) ++
      document.record.observations.map fun observation =>
        (((recordUri projection.contextId "observation" observation.id).getD "", document.sourcePath), observation.related)

theorem Distinct.edgeOwners {documents : List ParsedDocument} (distinct : Distinct projection documents) :
    ((projection.edgeOwners documents).map Prod.fst).Nodup := by
  unfold Projection.edgeOwners
  rw [map_flatMap, nodup_flatMap]
  constructor
  · intro document member
    have own := (nodup_flatMap.mp distinct.recordUris).1 document member
    have part : (document.record.entity.toList.map EntityHead.uri ++
        document.record.observations.map fun observation => (recordUri projection.contextId "observation" observation.id).getD "").Nodup := by
      refine own.sublist (List.Sublist.append ?_ (List.Sublist.refl _))
      exact sublist_append_left _ _
    have keyed := part.map (f := fun uri => (uri, document.sourcePath)) fun _ _ same => (Prod.mk.inj same).1
    rw [map_append, map_map, map_map] at keyed ⊢
    exact keyed
  · refine (pairwise_map.mp distinct.paths).imp ?_
    intro one two apart key member also
    simp only [map_append, map_map, mem_append, mem_map, Function.comp] at member also
    have first : key.2 = one.sourcePath := by rcases member with ⟨_, _, rfl⟩ | ⟨_, _, rfl⟩ <;> rfl
    have second : key.2 = two.sourcePath := by rcases also with ⟨_, _, rfl⟩ | ⟨_, _, rfl⟩ <;> rfl
    exact apart (first.symm.trans second)

section
variable {documents : List ParsedDocument}

def rowsIn (projection : Projection) (configuration : Configuration projection.contextId) (documents : List ParsedDocument) (table : Table) :
    List (Row Table Cell) :=
  (documents.flatMap (projection.documentRows configuration)).filter fun row => decide (row.table = table)

theorem owned_keys {table : Table} {name column : String} {owners : List (String × List String)}
    (rows : rowsIn projection configuration documents table =
      owners.flatMap fun owner => orderedRows table [projection.context, (name, .text owner.1)] column owner.2)
    (distinct : (owners.map Prod.fst).Nodup) (unique : ∀ owner ∈ owners, owner.2.Nodup)
    (keys : tableKeys table = [["context_id", name, "position"], ["context_id", name, column]])
    (apart : [name, "context_id", "position"].Nodup ∧ column ∉ [name, "context_id", "position"]) :
    ∀ key ∈ tableKeys table, ((rowsIn projection configuration documents table).map fun row => row.project key).Nodup := by
  obtain ⟨apart, other⟩ := apart
  simp only [nodup_cons, mem_cons, not_mem_nil, or_false, not_or] at apart other
  have both := ordered_distinct table owners (fun id => [projection.context, (name, .text id)]) ["context_id", name] column distinct unique ?_ ?_ ?_
    fun same => other.2.2 same.symm
  · intro key member
    rw [keys] at member
    rw [rows]
    rcases mem_pair.mp member with rfl | rfl
    · exact both.1
    · exact both.2
  · simp [lookup_cons, lookup_nil, context, beq_false_of_ne apart.1.1]
  · simp [lookup_cons, lookup_nil, context, beq_false_of_ne apart.1.1]
  · simp [lookup_cons, lookup_nil, context, beq_false_of_ne (Ne.symm apart.1.2), beq_false_of_ne other.1, beq_false_of_ne other.2.1]

def entityOwners (documents : List ParsedDocument) (list : EntityHead → List String) : List (String × List String) :=
  documents.flatMap fun document => document.record.entity.toList.map fun head => (head.id, list head)

section
variable (distinct : Distinct projection documents)
include distinct

theorem Distinct.entityIds :
    (documents.flatMap fun document => document.record.entity.toList.map EntityHead.id).Nodup :=
  distinct.recordIds.sublist (sublist_flatMap
    (fun _ => (sublist_append_left _ _).trans (sublist_append_left _ _)) documents)

theorem Distinct.entityOwners (list : EntityHead → List String) :
    ((entityOwners documents list).map Prod.fst).Nodup := by
  have ids := distinct.entityIds
  simpa [Projection.entityOwners, map_flatMap, Function.comp_def] using ids

theorem entityOwners_unique {list : EntityHead → List String}
    (listed : ∀ head : EntityHead, list head ∈ head.lists) : ∀ owner ∈ entityOwners documents list, owner.2.Nodup := by
  intro owner member
  obtain ⟨document, inside, own⟩ := mem_flatMap.mp member
  obtain ⟨head, here, rfl⟩ := mem_map.mp own
  obtain ⟨_, _, parsed⟩ := distinct.parsed document inside
  exact parsed.lists.1 head (Option.mem_toList.mp here) _ (listed head)

end

def taskOwners (documents : List ParsedDocument) (list : TaskHead → List String) : List (String × List String) :=
  documents.flatMap fun document => document.record.entity.toList.flatMap fun head =>
    document.record.task.toList.map fun task => (head.id, list task)

theorem toList_flatMap_sublist {α β γ : Type} (one : Option α) (two : Option β) (f : α → γ) :
    (one.toList.flatMap fun item => two.toList.map fun _ => f item).Sublist (one.toList.map f) := by
  cases one with
  | none => exact List.Sublist.slnil
  | some item => cases two <;> simp

section
variable (distinct : Distinct projection documents)
include distinct

theorem Distinct.taskIds :
    (documents.flatMap fun document => document.record.entity.toList.flatMap fun head =>
      document.record.task.toList.map fun _ => head.id).Nodup :=
  distinct.entityIds.sublist (sublist_flatMap (fun _ => toList_flatMap_sublist _ _ _) documents)

theorem Distinct.taskOwners (list : TaskHead → List String) :
    ((taskOwners documents list).map Prod.fst).Nodup := by
  have ids := distinct.taskIds
  simpa [Projection.taskOwners, map_flatMap, Function.comp_def] using ids

theorem taskOwners_unique {list : TaskHead → List String}
    (listed : ∀ task : TaskHead, list task ∈ task.lists) : ∀ owner ∈ taskOwners documents list, owner.2.Nodup := by
  intro owner member
  obtain ⟨document, inside, own⟩ := mem_flatMap.mp member
  obtain ⟨head, here, own⟩ := mem_flatMap.mp own
  obtain ⟨task, task', rfl⟩ := mem_map.mp own
  obtain ⟨_, _, parsed⟩ := distinct.parsed document inside
  exact parsed.lists.2.1 task (Option.mem_toList.mp task') _ (listed task)

end

@[simp] theorem flatMap_none {α β : Type} (items : List α) : (items.flatMap fun _ => ([] : List β)) = [] :=
  flatMap_eq_nil_iff.mpr fun _ _ => rfl

theorem nodup_eraseDups {α : Type} [BEq α] [LawfulBEq α] (items : List α) : items.eraseDups.Nodup := by
  match items with
  | [] => simp
  | item :: rest =>
    rw [eraseDups_cons, nodup_cons]
    refine ⟨?_, nodup_eraseDups _⟩
    rw [mem_eraseDups, mem_filter]
    simp
termination_by items.length
decreasing_by exact Nat.lt_succ_of_le (List.length_filter_le ..)

def topicOwners {contextId : String} (configuration : Configuration contextId) (documents : List ParsedDocument) : List (String × List String) :=
  documents.flatMap fun document => document.record.entity.toList.map fun head =>
    (document.sourcePath, canonicalTopics configuration head.topics)

theorem Distinct.topicOwners (distinct : Distinct projection documents)
    (configuration : Configuration projection.contextId) : ((topicOwners configuration documents).map Prod.fst).Nodup := by
  have part : ∀ document : ParsedDocument, (document.record.entity.toList.map fun _ => document.sourcePath).Sublist [document.sourcePath] := by
    intro document
    cases document.record.entity <;> simp
  have paths := distinct.paths
  rw [map_eq_flatMap] at paths
  simpa [Projection.topicOwners, map_flatMap, Function.comp_def] using paths.sublist (sublist_flatMap part documents)

theorem topicOwners_unique : ∀ owner ∈ topicOwners configuration documents, owner.2.Nodup := by
  intro owner member
  obtain ⟨document, _, own⟩ := mem_flatMap.mp member
  obtain ⟨head, _, rfl⟩ := mem_map.mp own
  exact nodup_eraseDups _

/-- The claims with their observations, and the observations with what they are derived from -/
def claimOwners (documents : List ParsedDocument) : List (String × List String) :=
  documents.flatMap fun document => document.record.claim.toList.map fun claim => (claim.id, claim.sourceObservations)

def derivationOwners (documents : List ParsedDocument) : List (String × List String) :=
  documents.flatMap fun document => document.record.observations.map fun observation => (observation.id, observation.derivedFrom)

section
variable (distinct : Distinct projection documents)
include distinct

theorem Distinct.claimIds :
    (documents.flatMap fun document => document.record.claim.toList.map ClaimHead.id).Nodup :=
  distinct.recordIds.sublist (sublist_flatMap
    (fun _ => (sublist_append_right _ _).trans (sublist_append_left _ _)) documents)

theorem Distinct.observationIds :
    (documents.flatMap fun document => document.record.observations.map Observation.id).Nodup :=
  distinct.recordIds.sublist (sublist_flatMap (fun _ => sublist_append_right _ _) documents)

theorem Distinct.claimOwners : ((claimOwners documents).map Prod.fst).Nodup := by
  have ids := distinct.claimIds
  simpa [Projection.claimOwners, map_flatMap, Function.comp_def] using ids

theorem Distinct.derivationOwners : ((derivationOwners documents).map Prod.fst).Nodup := by
  have ids := distinct.observationIds
  simpa [Projection.derivationOwners, map_flatMap, Function.comp_def] using ids

theorem claimOwners_unique : ∀ owner ∈ claimOwners documents, owner.2.Nodup := by
  intro owner member
  obtain ⟨document, inside, own⟩ := mem_flatMap.mp member
  obtain ⟨claim, here, rfl⟩ := mem_map.mp own
  obtain ⟨_, _, parsed⟩ := distinct.parsed document inside
  exact parsed.lists.2.2.1 claim (Option.mem_toList.mp here)

theorem derivationOwners_unique : ∀ owner ∈ derivationOwners documents, owner.2.Nodup := by
  intro owner member
  obtain ⟨document, inside, own⟩ := mem_flatMap.mp member
  obtain ⟨observation, here, rfl⟩ := mem_map.mp own
  obtain ⟨_, _, parsed⟩ := distinct.parsed document inside
  exact parsed.lists.2.2.2.1 observation here _ mem_cons_self

end

def edgeObservationOwners (projection : Projection) (documents : List ParsedDocument) : List (((String × String) × Nat) × List String) :=
  (entries (projection.edgeOwners documents)).map fun entry => ((entry.1, entry.2.2), entry.2.1.sourceObservations)

theorem edgeObservationOwners_unique (distinct : Distinct projection documents) :
    ∀ owner ∈ edgeObservationOwners projection documents, owner.2.Nodup := by
  intro owner member
  obtain ⟨entry, listed, rfl⟩ := mem_map.mp member
  obtain ⟨source, inside, own⟩ := mem_flatMap.mp listed
  obtain ⟨⟨reference, ordinal⟩, here, rfl⟩ := mem_map.mp own
  have referred : reference ∈ source.2 := fst_mem_of_mem_zipIdx here
  obtain ⟨document, accepted, part⟩ := mem_flatMap.mp inside
  obtain ⟨_, _, parsed⟩ := distinct.parsed document accepted
  rcases mem_append.mp part with entity | observed
  · obtain ⟨head, _, rfl⟩ := mem_map.mp entity
    exact parsed.lists.2.2.2.2 reference referred
  · obtain ⟨observation, made, rfl⟩ := mem_map.mp observed
    exact parsed.lists.2.2.2.1 observation made _ (mem_cons_of_mem _ (mem_map_of_mem referred))

theorem context_keys (contextId : String) {texts : List String} (distinct : texts.Nodup) :
    (texts.map fun text => [some (Cell.text contextId), some (Cell.text text)]).Nodup :=
  distinct.map fun _ _ same => by simpa using same

theorem rowsIn_keys (distinct : Distinct projection documents) (table : Table) (inside : table ≠ .projectionMetadata) :
    ∀ key ∈ tableKeys table, ((rowsIn projection configuration documents table).map fun row => row.project key).Nodup := by
  cases table with
  | projectionMetadata => exact absurd rfl inside
  | aliases =>
    refine owned_keys ?_ (distinct.entityOwners EntityHead.aliases) (entityOwners_unique distinct (by simp [EntityHead.lists])) rfl (by decide)
    simp [rowsIn, Projection.entityOwners, filter_flatMap, flatMap_assoc, flatMap_map]
  | entityTags =>
    refine owned_keys ?_ (distinct.entityOwners EntityHead.tags) (entityOwners_unique distinct (by simp [EntityHead.lists])) rfl (by decide)
    simp [rowsIn, Projection.entityOwners, filter_flatMap, flatMap_assoc, flatMap_map]
  | documentTopics =>
    refine owned_keys ?_ (distinct.topicOwners configuration) topicOwners_unique rfl (by decide)
    simp [rowsIn, Projection.topicOwners, filter_flatMap, flatMap_assoc, flatMap_map]
  | taskWaitingOn =>
    refine owned_keys ?_ (distinct.taskOwners TaskHead.waitingOn) (taskOwners_unique distinct (by simp [TaskHead.lists])) rfl (by decide)
    simp [rowsIn, Projection.taskOwners, filter_flatMap, flatMap_assoc, flatMap_map]
  | taskDependencies =>
    refine owned_keys ?_ (distinct.taskOwners TaskHead.dependencies) (taskOwners_unique distinct (by simp [TaskHead.lists])) rfl (by decide)
    simp [rowsIn, Projection.taskOwners, filter_flatMap, flatMap_assoc, flatMap_map]
  | taskBlockers =>
    refine owned_keys ?_ (distinct.taskOwners TaskHead.blockers) (taskOwners_unique distinct (by simp [TaskHead.lists])) rfl (by decide)
    simp [rowsIn, Projection.taskOwners, filter_flatMap, flatMap_assoc, flatMap_map]
  | taskSourceObservations =>
    refine owned_keys ?_ (distinct.taskOwners TaskHead.sourceObservations) (taskOwners_unique distinct (by simp [TaskHead.lists])) rfl
      (by decide)
    simp [rowsIn, Projection.taskOwners, filter_flatMap, flatMap_assoc, flatMap_map]
  | claimSourceObservations =>
    refine owned_keys ?_ distinct.claimOwners (claimOwners_unique distinct) rfl (by decide)
    simp [rowsIn, Projection.claimOwners, filter_flatMap, flatMap_assoc, flatMap_map]
  | observationDerivations =>
    refine owned_keys ?_ distinct.derivationOwners (derivationOwners_unique distinct) rfl (by decide)
    simp [rowsIn, Projection.derivationOwners, filter_flatMap, flatMap_assoc, flatMap_map]
  | entities =>
    have uris := distinct.recordUris.sublist (sublist_flatMap
      (fun _ => (sublist_append_left _ _).trans (sublist_append_left _ _)) documents)
    have keys := And.intro (context_keys projection.contextId distinct.entityIds) (context_keys projection.contextId uris)
    simpa [tableKeys, rowsIn, filter_flatMap, map_flatMap, map_eq_flatMap, flatMap_assoc, lookup_cons,
      lookup_nil, Row.project, Row.cell, Function.comp_def] using keys
  | claims =>
    have uris := distinct.recordUris.sublist (sublist_flatMap
      (fun _ => (sublist_append_right _ _).trans (sublist_append_left _ _)) documents)
    have keys := And.intro (context_keys projection.contextId distinct.claimIds) (context_keys projection.contextId uris)
    simpa [tableKeys, rowsIn, filter_flatMap, map_flatMap, map_eq_flatMap, flatMap_assoc, lookup_cons,
      lookup_nil, Row.project, Row.cell, Function.comp_def] using keys
  | observations =>
    have uris := distinct.recordUris.sublist (sublist_flatMap (fun _ => sublist_append_right _ _) documents)
    have keys := And.intro (context_keys projection.contextId distinct.observationIds) (context_keys projection.contextId uris)
    simpa [tableKeys, rowsIn, filter_flatMap, map_flatMap, map_eq_flatMap, flatMap_assoc, lookup_cons,
      lookup_nil, Row.project, Row.cell, Function.comp_def] using keys
  | tasks =>
    intro key member
    obtain rfl := mem_singleton.mp member
    simpa [rowsIn, filter_flatMap, map_flatMap, map_eq_flatMap, flatMap_assoc, lookup_cons, lookup_nil, Row.project, Row.cell, Function.comp_def, -map_const'] using context_keys projection.contextId distinct.taskIds
  | edges =>
    intro key member
    obtain rfl := mem_singleton.mp member
    have keys := (entries_positions distinct.edgeOwners).map (f := fun entry => [some (Cell.text projection.contextId),
      some (Cell.text entry.1.1), some (Cell.text entry.1.2), some (Cell.number entry.2)]) fun one two same => by
        simp only [List.cons.injEq, Option.some.injEq, Cell.text.injEq, Cell.number.injEq, true_and, and_true] at same
        exact Prod.ext (Prod.ext same.1 same.2.1) same.2.2
    simpa [rowsIn, Projection.edgeOwners, entries, edgeOwner, filter_flatMap, map_flatMap, flatMap_map, flatMap_assoc,
      lookup_cons, lookup_nil, Row.project, Row.cell, Function.comp_def] using keys
  | edgeSourceObservations =>
    have both := ordered_distinct .edgeSourceObservations (edgeObservationOwners projection documents)
      (fun key => edgeOwner key.1.1 key.1.2 key.2) ["source_uri", "source_path", "ordinal"] "observation_uri"
      (by simpa [edgeObservationOwners, Function.comp_def] using entries_positions distinct.edgeOwners)
      (edgeObservationOwners_unique distinct) ?_ ?_ ?_ (by decide)
    · have rows : rowsIn projection configuration documents .edgeSourceObservations =
          (edgeObservationOwners projection documents).flatMap fun owner =>
            orderedRows .edgeSourceObservations (edgeOwner owner.1.1.1 owner.1.1.2 owner.1.2) "observation_uri" owner.2 := by
        simp [rowsIn, edgeObservationOwners, entries, Projection.edgeOwners, filter_flatMap, flatMap_assoc, flatMap_map, map_flatMap]
      intro key member
      rw [rows]
      rcases mem_pair.mp member with rfl | rfl
      · exact both.1
      · exact both.2
    · intro one two same
      simp only [edgeOwner, lookup_cons, lookup_nil, map_cons, map_nil] at same
      simp at same
      exact Prod.ext (Prod.ext same.1 same.2.1) same.2.2
    · simp [edgeOwner, lookup_cons, lookup_nil]
    · simp [edgeOwner, lookup_cons, lookup_nil]
  | searchDocuments =>
    intro key member
    obtain rfl := mem_singleton.mp member
    refine List.Nodup.of_map (fun key : List (Option Cell) => key.getLast?) ?_
    have ids := distinct.recordIds.map (f := fun id => some (some (Cell.text id))) fun _ _ same => by simpa using same
    simpa [rowsIn, filter_flatMap, map_flatMap, map_eq_flatMap, flatMap_assoc, lookup_cons, lookup_nil, Row.project, Row.cell, Function.comp_def] using ids

end
end Projection
end Workctx.Owners
