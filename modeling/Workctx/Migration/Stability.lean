import Workctx.Migration.Grants
import Workctx.Owners.Keys

/-! Which documents keep their legacy identifiers. -/

namespace Workctx.Migration
open Workctx.Concurrent Workctx.Domain Workctx.Topics List

def InventoryAnalysis.nonTasks (analysis : InventoryAnalysis) : List LegacyDocument :=
  analysis.safeDocuments.filter fun document => document.entityType != "task"

def InventoryAnalysis.tasks (analysis : InventoryAnalysis) : List LegacyDocument :=
  analysis.safeDocuments.filter fun document => document.entityType == "task"

/-! The run of the allocator -/

def lastState (allocator : Allocator) (grants : List Grant) : Allocator := (grants.getLast?.map Grant.after).getD allocator

section
variable (unicode : UnicodeData) (time : MigrationTime)

/-- The grants of `build_mapping_preview` to the documents that are no tasks -/
def documentGrants : List LegacyDocument → Allocator → List Grant
  | [], _ => []
  | document :: rest, allocator =>
    match allocator.reserveOrAllocate time unicode document.entityType document.oldId document.relativePath with
    | .error _ => []
    | .ok (id, reserved) => ⟨document, validId document.entityType, allocator, id, reserved⟩ :: documentGrants rest reserved

/-- The grants of `_plan_tasks` to the roots -/
def rootGrants (tasks : List LegacyDocument) : List String → Allocator → List Grant
  | [], _ => []
  | path :: rest, allocator =>
    match tasks.find? fun task => task.relativePath == path with
    | none => []
    | some source =>
      match allocator.allocateParentTask time source.oldId with
      | .error _ => []
      | .ok (id, reserved) => ⟨source, validParentTaskId, allocator, id, reserved⟩ :: rootGrants tasks rest reserved

/-- The grants of `_plan_tasks` to the other tasks -/
def subtaskGrants (roots : LegacyDocument → String) (rootIds : Directory String String) : List LegacyDocument → Allocator → List Grant
  | [], _ => []
  | task :: rest, allocator =>
    if task.relativePath = roots task then subtaskGrants roots rootIds rest allocator
    else
      match rootIds.get (roots task) with
      | none => []
      | some rootId =>
        match allocator.allocateSubtask rootId task.oldId with
        | .error _ => []
        | .ok (id, reserved) =>
          ⟨task, Allocator.isSubtaskOf rootId, allocator, id, reserved⟩ :: subtaskGrants roots rootIds rest reserved

def rootPaths (tasks : List LegacyDocument) : List String :=
  sortByPath unicode id (tasks.map fun task => rootOf unicode tasks task.relativePath).eraseDups

/-- The grants of `_plan_tasks` -/
def taskGrants (tasks : List LegacyDocument) (allocator : Allocator) : List Grant :=
  let roots := rootGrants time tasks (rootPaths unicode tasks) allocator
  roots ++ subtaskGrants (fun task => rootOf unicode tasks task.relativePath)
    (roots.map fun grant => (grant.document.relativePath, grant.id)) (sortByPath unicode LegacyDocument.relativePath tasks)
    (lastState allocator roots)

/-- The grants of `build_mapping_preview` to the documents -/
def grants (analysis : InventoryAnalysis) : List Grant :=
  let documents := documentGrants unicode time analysis.nonTasks ⟨[], []⟩
  documents ++ taskGrants unicode time analysis.tasks (lastState ⟨[], []⟩ documents)

end

section
variable {unicode : UnicodeData} {time : MigrationTime} {contextId : String} {allocator later : Allocator}

theorem Granted.last {grants : List Grant} (granted : Granted allocator grants later) : lastState allocator grants = later := by
  induction grants generalizing allocator with
  | nil => exact granted
  | cons grant rest ih =>
    obtain ⟨_, _, below⟩ := granted
    rw [← ih below]
    unfold lastState
    cases rest with
    | nil => rfl
    | cons second more =>
      have found : (second :: more).getLast? = some ((second :: more).getLast (cons_ne_nil _ _)) := getLast?_eq_some_getLast _
      rw [getLast?_cons_cons, found]
      rfl

theorem directory_of_planned {targetId : String} {document : LegacyDocument} {planned : PlannedDocument}
    (made : plannedDocument contextId document targetId = .ok planned) : document.entityType ∈ entityDirectories.map Prod.fst := by
  unfold plannedDocument at made
  split at made
  · cases made
  · split at made
    · cases made
    · next path found =>
      obtain ⟨directory, present, _⟩ := Option.map_eq_some_iff.mp found
      exact mem_map.mpr ⟨_, Directory.mem_of_get present, rfl⟩

theorem documentGrants_granted {documents : List LegacyDocument} {planned : List PlannedDocument}
    (made : planDocuments unicode time contextId documents allocator = .ok (planned, later))
    (others : ∀ document ∈ documents, document.entityType ≠ "task") :
    Granted allocator (documentGrants unicode time documents allocator) later ∧
      (documentGrants unicode time documents allocator).map (fun grant => (grant.document, grant.id)) =
        planned.map (fun document => (document.source, document.targetId)) ∧
      ∀ grant ∈ documentGrants unicode time documents allocator, grant.accepts = validId grant.document.entityType := by
  induction documents generalizing allocator planned later with
  | nil =>
    cases made
    exact ⟨rfl, rfl, forall_mem_nil _⟩
  | cons document rest ih =>
    rw [planDocuments] at made
    obtain ⟨⟨targetId, reserved⟩, allocated, planning⟩ := bind_ok.mp made
    obtain ⟨one, first, remaining⟩ := bind_ok.mp planning
    obtain ⟨⟨more, last⟩, below, done⟩ := bind_ok.mp remaining
    cases done
    obtain ⟨source, target, _⟩ := plannedDocument_made first
    obtain ⟨other, rest'⟩ := forall_mem_cons.mp others
    obtain ⟨granted, same, accepted⟩ := ih below rest'
    have own := documentGrant_made allocated (directory_of_planned first) other
    rw [documentGrants, allocated]
    exact ⟨⟨rfl, own, granted⟩, by rw [map_cons, map_cons, same, source, target], forall_mem_cons.mpr ⟨rfl, accepted⟩⟩

theorem rootGrants_granted {tasks : List LegacyDocument} {paths : List String} {rootIds : Directory String String}
    (made : allocateRoots time tasks paths allocator = .ok (rootIds, later)) :
    Granted allocator (rootGrants time tasks paths allocator) later ∧
      (rootGrants time tasks paths allocator).map (fun grant => (grant.document.relativePath, grant.id)) = rootIds ∧
      rootIds.map Prod.fst = paths ∧
      ∀ grant ∈ rootGrants time tasks paths allocator, grant.document ∈ tasks ∧ grant.accepts = validParentTaskId := by
  induction paths generalizing allocator rootIds later with
  | nil =>
    cases made
    exact ⟨rfl, rfl, rfl, forall_mem_nil _⟩
  | cons path rest ih =>
    rw [allocateRoots] at made
    obtain ⟨source, lookup, allocating⟩ := bind_ok.mp made
    obtain ⟨⟨id, reserved⟩, allocated, remaining⟩ := bind_ok.mp allocating
    obtain ⟨⟨ids, last⟩, below, done⟩ := bind_ok.mp remaining
    cases done
    have found : (tasks.find? fun task => task.relativePath == path) = some source := by
      cases got : tasks.find? fun task => task.relativePath == path with
      | none => simp [got] at lookup
      | some task =>
        rw [got] at lookup
        exact congrArg some (Except.ok.inj lookup)
    have here : source.relativePath = path := by simpa using find?_some found
    obtain ⟨granted, same, keys, accepted⟩ := ih below
    rw [rootGrants, found]
    dsimp only
    rw [allocated]
    refine ⟨⟨rfl, rootGrant_made allocated, granted⟩, ?_, ?_, ?_⟩
    · rw [map_cons, same, here]
    · rw [map_cons, keys]
    · exact forall_mem_cons.mpr ⟨⟨mem_of_find?_eq_some found, rfl⟩, accepted⟩

theorem subtaskGrants_granted {roots : LegacyDocument → String} {rootIds : Directory String String} {tasks : List LegacyDocument}
    {planned : List PlannedDocument} (made : planTaskDocuments contextId roots rootIds tasks allocator = .ok (planned, later)) :
    Granted allocator (subtaskGrants roots rootIds tasks allocator) later ∧
      (subtaskGrants roots rootIds tasks allocator).map (fun grant => (grant.document, grant.id)) =
        (planned.filter fun document => document.source.relativePath != roots document.source).map
          (fun document => (document.source, document.targetId)) ∧
      ∀ grant ∈ subtaskGrants roots rootIds tasks allocator, ∃ rootId, rootIds.get (roots grant.document) = some rootId ∧
        grant.accepts = Allocator.isSubtaskOf rootId := by
  induction tasks generalizing allocator planned later with
  | nil =>
    cases made
    exact ⟨rfl, rfl, forall_mem_nil _⟩
  | cons task rest ih =>
    rw [planTaskDocuments] at made
    obtain ⟨rootId, lookup, choosing⟩ := bind_ok.mp made
    obtain ⟨⟨targetId, reserved⟩, chosen, planning⟩ := bind_ok.mp choosing
    obtain ⟨base, first, remaining⟩ := bind_ok.mp planning
    obtain ⟨⟨more, last⟩, below, done⟩ := bind_ok.mp remaining
    cases done
    obtain ⟨source, target, _⟩ := plannedDocument_made first
    have found : rootIds.get (roots task) = some rootId := by
      cases got : rootIds.get (roots task) with
      | none => simp [got] at lookup
      | some id =>
        rw [got] at lookup
        exact congrArg some (Except.ok.inj lookup)
    obtain ⟨granted, same, accepted⟩ := ih below
    rw [subtaskGrants, filter_cons]
    dsimp only
    rw [source]
    by_cases root : task.relativePath = roots task
    · rw [taskTarget, if_pos root] at chosen
      cases chosen
      rw [if_pos root, if_neg (by simp [root])]
      exact ⟨granted, same, accepted⟩
    · rw [taskTarget, if_neg root] at chosen
      rw [if_neg root, if_pos (by simp [root]), found]
      dsimp only
      rw [chosen]
      refine ⟨⟨rfl, subtaskGrant_made chosen, granted⟩, ?_, forall_mem_cons.mpr ⟨⟨rootId, found, rfl⟩, accepted⟩⟩
      rw [map_cons, map_cons, same, target]

/-! The grants to the tasks -/

section
variable {tasks : List LegacyDocument} {planned : List PlannedDocument}

theorem mem_rootPaths {path : String} : path ∈ rootPaths unicode tasks ↔ ∃ task ∈ tasks, rootOf unicode tasks task.relativePath = path := by
  unfold rootPaths sortByPath
  rw [(mergeSort_perm _ _).mem_iff, mem_eraseDups, mem_map]

theorem rootPaths_nodup (tasks : List LegacyDocument) : (rootPaths unicode tasks).Nodup :=
  (mergeSort_perm _ _).nodup_iff.mpr (Owners.Projection.nodup_eraseDups _)

theorem rootOf_rootPath {path : String} (member : path ∈ rootPaths unicode tasks) : rootOf unicode tasks path = path := by
  obtain ⟨task, inside, rfl⟩ := mem_rootPaths.mp member
  exact rootOf_rootOf (mem_map_of_mem inside)

structure TaskGrants (unicode : UnicodeData) (tasks : List LegacyDocument) (planned : List PlannedDocument) (grants : List Grant) : Prop where
  given : ∀ document ∈ planned, ∃ grant ∈ grants, grant.document = document.source ∧ grant.id = document.targetId
  listed : ∀ grant ∈ grants, ∃ document ∈ planned, document.source = grant.document ∧ document.targetId = grant.id
  apart : (grants.map fun grant => grant.document.relativePath).Nodup
  /-- The legacy identifiers that a task may keep: those of parents for the roots, and those below the root for the others. -/
  accepts : ∀ grant ∈ grants, ∀ id,
    (if grant.document.relativePath = rootOf unicode tasks grant.document.relativePath then validParentTaskId id = true
      else ∃ root ∈ planned, root.source.relativePath = rootOf unicode tasks grant.document.relativePath ∧
        Allocator.isSubtaskOf root.targetId id = true) → grant.accepts id = true

theorem taskGrants_granted (made : planTasks unicode time contextId tasks allocator = .ok (planned, later))
    (apart : (tasks.map LegacyDocument.relativePath).Nodup) :
    Granted allocator (taskGrants unicode time tasks allocator) later ∧
      TaskGrants unicode tasks planned (taskGrants unicode time tasks allocator) := by
  have sources := (planTasks_made made apart).2.1
  unfold planTasks at made
  dsimp only at made
  obtain ⟨⟨rootIds, reserved⟩, rooted, rest⟩ := bind_ok.mp made
  change allocateRoots time tasks (rootPaths unicode tasks) allocator = _ at rooted
  change planTaskDocuments contextId (fun task => rootOf unicode tasks task.relativePath) rootIds
    (sortByPath unicode LegacyDocument.relativePath tasks) reserved = _ at rest
  obtain ⟨first, ids, keys, rootsAccept⟩ := rootGrants_granted rooted
  obtain ⟨second, same, subtasksAccept⟩ := subtaskGrants_granted rest
  have placed := planTaskDocuments_placed rest
  have split : taskGrants unicode time tasks allocator = rootGrants time tasks (rootPaths unicode tasks) allocator ++
      subtaskGrants (fun task => rootOf unicode tasks task.relativePath) rootIds
        (sortByPath unicode LegacyDocument.relativePath tasks) reserved := by
    unfold taskGrants
    dsimp only
    rw [ids, first.last]
  have distinct : (rootIds.map Prod.fst).Nodup := keys ▸ rootPaths_nodup tasks
  have listed : ∀ grant ∈ rootGrants time tasks (rootPaths unicode tasks) allocator, (grant.document.relativePath, grant.id) ∈ rootIds :=
    fun grant member => ids ▸ mem_map_of_mem member
  have fixed : ∀ grant ∈ rootGrants time tasks (rootPaths unicode tasks) allocator,
      grant.document.relativePath = rootOf unicode tasks grant.document.relativePath := by
    intro grant member
    exact (rootOf_rootPath (keys ▸ mem_map_of_mem (f := Prod.fst) (listed grant member))).symm
  have subListed : ∀ grant ∈ subtaskGrants (fun task => rootOf unicode tasks task.relativePath) rootIds
      (sortByPath unicode LegacyDocument.relativePath tasks) reserved, ∃ document ∈ planned, document.source = grant.document ∧
        document.targetId = grant.id ∧ grant.document.relativePath ≠ rootOf unicode tasks grant.document.relativePath := by
    intro grant member
    have entry := mem_map_of_mem (f := fun grant : Grant => (grant.document, grant.id)) member
    rw [same] at entry
    obtain ⟨document, inside, equal⟩ := mem_map.mp entry
    obtain ⟨source, id⟩ := Prod.mk.inj equal
    obtain ⟨inside, apart⟩ := mem_filter.mp inside
    exact ⟨document, inside, source, id, source ▸ bne_iff_ne.mp apart⟩
  have below : ∀ grant ∈ subtaskGrants (fun task => rootOf unicode tasks task.relativePath) rootIds
      (sortByPath unicode LegacyDocument.relativePath tasks) reserved,
        grant.document.relativePath ≠ rootOf unicode tasks grant.document.relativePath := by
    intro grant member
    obtain ⟨_, _, _, _, apart⟩ := subListed grant member
    exact apart
  have onePath : ∀ one ∈ tasks, ∀ two ∈ tasks, one.relativePath = two.relativePath → one = two :=
    fun one member two also same => inj_on_of_nodup_map apart member also same
  rw [split]
  refine ⟨first.append second, ?_, ?_, ?_, ?_⟩
  · intro document inside
    by_cases root : document.source.relativePath = rootOf unicode tasks document.source.relativePath
    · obtain ⟨rootId, place⟩ := placed document inside
      have found : rootIds.get (rootOf unicode tasks document.source.relativePath) = some rootId := place.found
      rw [← root] at found
      have entry := Directory.mem_of_get found
      rw [← ids] at entry
      obtain ⟨grant, member, equal⟩ := mem_map.mp entry
      obtain ⟨path, id⟩ := Prod.mk.inj equal
      have task : document.source ∈ tasks := sources.mem_iff.mp (mem_map_of_mem inside)
      refine ⟨grant, mem_append_left _ member, onePath _ (rootsAccept grant member).1 _ task path, ?_⟩
      rw [id, place.own root]
    · have entry : (document.source, document.targetId) ∈ (planned.filter fun document =>
          document.source.relativePath != rootOf unicode tasks document.source.relativePath).map
            (fun document => (document.source, document.targetId)) :=
        mem_map.mpr ⟨document, mem_filter.mpr ⟨inside, bne_iff_ne.mpr root⟩, rfl⟩
      rw [← same] at entry
      obtain ⟨grant, member, equal⟩ := mem_map.mp entry
      obtain ⟨source, id⟩ := Prod.mk.inj equal
      exact ⟨grant, mem_append_right _ member, source, id⟩
  · intro grant member
    rcases mem_append.mp member with root | sub
    · obtain ⟨document, inside, source⟩ := mem_map.mp (sources.mem_iff.mpr (rootsAccept grant root).1)
      obtain ⟨rootId, place⟩ := placed document inside
      have top : document.source.relativePath = rootOf unicode tasks document.source.relativePath := source ▸ fixed grant root
      have found : rootIds.get (rootOf unicode tasks document.source.relativePath) = some rootId := place.found
      rw [← top, source, Directory.get_of_mem distinct (listed grant root)] at found
      exact ⟨document, inside, source, (place.own top).trans (Option.some.inj found).symm⟩
    · obtain ⟨document, inside, source, id, _⟩ := subListed grant sub
      exact ⟨document, inside, source, id⟩
  · rw [map_append, nodup_append]
    refine ⟨?_, ?_, ?_⟩
    · have paths : (rootGrants time tasks (rootPaths unicode tasks) allocator).map (fun grant => grant.document.relativePath) =
          rootPaths unicode tasks := by
        have mapped := congrArg (List.map Prod.fst) ids
        rw [map_map, keys] at mapped
        exact mapped
      rw [paths]
      exact rootPaths_nodup tasks
    · have paths : (subtaskGrants (fun task => rootOf unicode tasks task.relativePath) rootIds
          (sortByPath unicode LegacyDocument.relativePath tasks) reserved).map (fun grant => grant.document.relativePath) =
            (planned.filter fun document => document.source.relativePath != rootOf unicode tasks document.source.relativePath).map
              fun document => document.source.relativePath := by
        have mapped := congrArg (List.map fun entry : LegacyDocument × String => entry.1.relativePath) same
        rw [map_map, map_map] at mapped
        exact mapped
      rw [paths]
      have all : (planned.map fun document => document.source.relativePath).Nodup := by
        have mapped := (sources.map LegacyDocument.relativePath).nodup_iff.mpr apart
        rw [map_map] at mapped
        exact mapped
      exact all.sublist (filter_sublist.map _)
    · intro one root two sub equal
      obtain ⟨grant, member, rfl⟩ := mem_map.mp root
      obtain ⟨other, also, rfl⟩ := mem_map.mp sub
      exact below other also (equal ▸ fixed grant member)
  · intro grant member id valid
    rcases mem_append.mp member with root | sub
    · rw [if_pos (fixed grant root)] at valid
      rw [(rootsAccept grant root).2]
      exact valid
    · rw [if_neg (below grant sub)] at valid
      obtain ⟨root, inside, path, under⟩ := valid
      obtain ⟨rootId, found, accepts⟩ := subtasksAccept grant sub
      obtain ⟨ownId, place⟩ := placed root inside
      have task : grant.document ∈ tasks := by
        obtain ⟨document, inside, source, _⟩ := subListed grant sub
        exact source ▸ sources.mem_iff.mp (mem_map_of_mem inside)
      have top : rootOf unicode tasks root.source.relativePath = root.source.relativePath := by
        rw [path]
        exact rootOf_rootOf (mem_map_of_mem task)
      have same : rootIds.get (rootOf unicode tasks root.source.relativePath) = some ownId := place.found
      rw [top, path, found] at same
      rw [accepts, Option.some.inj same, ← place.own top.symm]
      exact under

end
end

/-! Stable identifiers -/

section
variable (unicode : UnicodeData) (time : MigrationTime)

/-- The legacy identifier is valid for the type of the document; that of a subtask for its place below a parent that keeps its own. -/
def Fits (analysis : InventoryAnalysis) (plan : MigrationPlan) (document : LegacyDocument) (id : String) : Prop :=
  if document.entityType = "task" then
    if document.relativePath = rootOf unicode analysis.tasks document.relativePath then validParentTaskId id = true
    else ∃ parent ∈ plan.documents, parent.source ∈ analysis.tasks ∧
      parent.source.relativePath = rootOf unicode analysis.tasks document.relativePath ∧
        parent.source.oldId = some parent.targetId ∧ Allocator.isSubtaskOf parent.targetId id = true
  else validId document.entityType id = true

/-- The document is the only one to carry the identifier, which is valid for it. -/
structure Entitled (analysis : InventoryAnalysis) (plan : MigrationPlan) (document : LegacyDocument) (id : String) : Prop where
  own : document.oldId = some id
  sole : ∀ other ∈ analysis.documents, other.oldId = some id → other = document
  fits : Fits unicode analysis plan document id

/-- Every document keeps the legacy identifier that is its own. -/
def KeepsIds (analysis : InventoryAnalysis) (plan : MigrationPlan) : Prop :=
  ∀ planned ∈ plan.documents, ∀ id, Entitled unicode analysis plan planned.source id → planned.targetId = id

/-- No legacy identifier is handed out to another before the turn of the document whose own it is. -/
def Undisturbed (analysis : InventoryAnalysis) (plan : MigrationPlan) : Prop :=
  ∀ front grant back, grants unicode time analysis = front ++ grant :: back →
    ∀ id, Entitled unicode analysis plan grant.document id → ¬HandedOut id front

end

section
variable {unicode : UnicodeData} {time : MigrationTime} {contextId : String} {analysis : InventoryAnalysis} {plan : MigrationPlan}

theorem InventoryAnalysis.mem_tasks {document : LegacyDocument} (member : document ∈ analysis.tasks) :
    document ∈ analysis.documents ∧ document.entityType = "task" := by
  obtain ⟨safe, task⟩ := mem_filter.mp member
  exact ⟨mem_of_mem_filter safe, beq_iff_eq.mp task⟩

theorem InventoryAnalysis.mem_nonTasks {document : LegacyDocument} (member : document ∈ analysis.nonTasks) :
    document ∈ analysis.documents ∧ document.entityType ≠ "task" := by
  obtain ⟨safe, other⟩ := mem_filter.mp member
  exact ⟨mem_of_mem_filter safe, bne_iff_ne.mp other⟩

theorem InventoryAnalysis.tasks_apart (analysis : InventoryAnalysis) : (analysis.tasks.map LegacyDocument.relativePath).Nodup :=
  analysis.apart.sublist ((filter_sublist.trans filter_sublist).map _)

theorem InventoryAnalysis.nonTasks_apart (analysis : InventoryAnalysis) : (analysis.nonTasks.map LegacyDocument.relativePath).Nodup :=
  analysis.apart.sublist ((filter_sublist.trans filter_sublist).map _)

structure PlanGrants (unicode : UnicodeData) (analysis : InventoryAnalysis) (plan : MigrationPlan) (grants : List Grant) : Prop where
  granted : ∃ last, Granted ⟨[], []⟩ grants last
  given : ∀ planned ∈ plan.documents, ∃ grant ∈ grants, grant.document = planned.source ∧ grant.id = planned.targetId
  listed : ∀ grant ∈ grants, ∃ planned ∈ plan.documents, planned.source = grant.document ∧ planned.targetId = grant.id
  inside : ∀ grant ∈ grants, grant.document ∈ analysis.documents
  apart : (grants.map fun grant => grant.document.relativePath).Nodup
  accepts : ∀ grant ∈ grants, ∀ id, Fits unicode analysis plan grant.document id → grant.accepts id = true

theorem planProvenance_pairs {documents planned : List PlannedDocument} {allocator later : Allocator}
    (made : planProvenance unicode time documents allocator = .ok (planned, later)) :
    planned.map (fun document => (document.source, document.targetId)) = documents.map (fun document => (document.source, document.targetId)) := by
  have same := congrArg (List.map fun entry : LegacyDocument × String × String => (entry.1, entry.2.1)) (planProvenance_made made).1
  rw [map_map, map_map] at same
  exact same

theorem grants_plan (made : buildMappingPreview unicode analysis contextId time = .ok plan) :
    PlanGrants unicode analysis plan (grants unicode time analysis) := by
  unfold buildMappingPreview at made
  dsimp only at made
  obtain ⟨⟨planned, allocator⟩, first, more⟩ := bind_ok.mp made
  obtain ⟨⟨tasks, reserved⟩, second, further⟩ := bind_ok.mp more
  obtain ⟨⟨documents, last⟩, third, done⟩ := bind_ok.mp further
  cases done
  change planDocuments unicode time contextId analysis.nonTasks _ = _ at first
  change planTasks unicode time contextId analysis.tasks allocator = _ at second
  obtain ⟨granted, pairs, valid⟩ := documentGrants_granted first
    fun _ member => (InventoryAnalysis.mem_nonTasks member).2
  obtain ⟨granted', listing⟩ := taskGrants_granted second analysis.tasks_apart
  have sources : (planned.map PlannedDocument.source) = analysis.nonTasks := (planDocuments_made first).2.1
  have taskSources : (tasks.map PlannedDocument.source).Perm analysis.tasks := (planTasks_made second analysis.tasks_apart).2.1
  -- The documents of the plan and their identifiers are those before the provenance was planned.
  have mem_pairs : ∀ source id, (∃ document ∈ documents, document.source = source ∧ document.targetId = id) ↔
      ∃ document ∈ planned ++ tasks, document.source = source ∧ document.targetId = id := by
    intro source id
    have listed : ∀ items : List PlannedDocument, (∃ document ∈ items, document.source = source ∧ document.targetId = id) ↔
        (source, id) ∈ items.map fun document => (document.source, document.targetId) := by
      intro items
      rw [mem_map]
      exact exists_congr fun document => and_congr_right fun _ => Prod.mk_inj.symm
    rw [listed, listed, planProvenance_pairs third]
    exact ((mergeSort_perm _ _).map _).mem_iff
  have split : grants unicode time analysis = documentGrants unicode time analysis.nonTasks ⟨[], []⟩ ++
      taskGrants unicode time analysis.tasks allocator := by
    unfold grants
    dsimp only
    rw [granted.last]
  have plain : ∀ grant ∈ documentGrants unicode time analysis.nonTasks ⟨[], []⟩, ∃ document ∈ planned,
      document.source = grant.document ∧ document.targetId = grant.id := by
    intro grant member
    have entry := mem_map_of_mem (f := fun grant : Grant => (grant.document, grant.id)) member
    rw [pairs] at entry
    obtain ⟨document, inside, equal⟩ := mem_map.mp entry
    obtain ⟨source, id⟩ := Prod.mk.inj equal
    exact ⟨document, inside, source, id⟩
  have plainOther : ∀ grant ∈ documentGrants unicode time analysis.nonTasks ⟨[], []⟩, grant.document ∈ analysis.nonTasks := by
    intro grant member
    obtain ⟨document, inside, source, _⟩ := plain grant member
    exact source ▸ sources ▸ mem_map_of_mem inside
  have taskOther : ∀ grant ∈ taskGrants unicode time analysis.tasks allocator, grant.document ∈ analysis.tasks := by
    intro grant member
    obtain ⟨document, inside, source, _⟩ := listing.listed grant member
    exact source ▸ taskSources.mem_iff.mp (mem_map_of_mem inside)
  rw [split]
  refine ⟨⟨reserved, granted.append granted'⟩, ?_, ?_, ?_, ?_, ?_⟩
  · intro document member
    obtain ⟨other, inside, source, id⟩ := (mem_pairs document.source document.targetId).mp ⟨document, member, rfl, rfl⟩
    rcases mem_append.mp inside with here | there
    · have entry : (document.source, document.targetId) ∈ planned.map fun document => (document.source, document.targetId) :=
        mem_map.mpr ⟨other, here, by rw [source, id]⟩
      rw [← pairs] at entry
      obtain ⟨grant, given, equal⟩ := mem_map.mp entry
      obtain ⟨source, id⟩ := Prod.mk.inj equal
      exact ⟨grant, mem_append_left _ given, source, id⟩
    · obtain ⟨grant, given, source', id'⟩ := listing.given other there
      exact ⟨grant, mem_append_right _ given, source'.trans source, id'.trans id⟩
  · intro grant member
    refine (mem_pairs grant.document grant.id).mpr ?_
    rcases mem_append.mp member with here | there
    · obtain ⟨document, inside, same⟩ := plain grant here
      exact ⟨document, mem_append_left _ inside, same⟩
    · obtain ⟨document, inside, same⟩ := listing.listed grant there
      exact ⟨document, mem_append_right _ inside, same⟩
  · intro grant member
    rcases mem_append.mp member with here | there
    · exact (InventoryAnalysis.mem_nonTasks (plainOther grant here)).1
    · exact (InventoryAnalysis.mem_tasks (taskOther grant there)).1
  · rw [map_append, nodup_append]
    refine ⟨?_, listing.apart, ?_⟩
    · have mapped := congrArg (List.map fun entry : LegacyDocument × String => entry.1.relativePath) pairs
      rw [map_map, map_map] at mapped
      have paths : (planned.map fun document => document.source.relativePath).Nodup := by
        have nodup := analysis.nonTasks_apart
        rw [← sources, map_map] at nodup
        exact nodup
      exact mapped ▸ paths
    · intro path here other there equal
      obtain ⟨grant, member, rfl⟩ := mem_map.mp here
      obtain ⟨grant', member', rfl⟩ := mem_map.mp there
      obtain ⟨inside, kind⟩ := InventoryAnalysis.mem_nonTasks (plainOther grant member)
      obtain ⟨inside', kind'⟩ := InventoryAnalysis.mem_tasks (taskOther grant' member')
      have same := inj_on_of_nodup_map analysis.apart inside inside' equal
      exact kind (same ▸ kind')
  · intro grant member id fits
    unfold Fits at fits
    rcases mem_append.mp member with here | there
    · rw [if_neg (InventoryAnalysis.mem_nonTasks (plainOther grant here)).2] at fits
      rw [valid grant here]
      exact fits
    · rw [if_pos (InventoryAnalysis.mem_tasks (taskOther grant there)).2] at fits
      refine listing.accepts grant there id ?_
      split at fits
      · next root =>
        rw [if_pos root]
        exact fits
      · next below =>
        rw [if_neg below]
        obtain ⟨parent, planned', task, path, _, under⟩ := fits
        obtain ⟨document, inside, source, target⟩ := (mem_pairs parent.source parent.targetId).mp ⟨parent, planned', rfl, rfl⟩
        rcases mem_append.mp inside with plain | root
        · have other := (InventoryAnalysis.mem_nonTasks (sources ▸ mem_map_of_mem plain : document.source ∈ analysis.nonTasks)).2
          exact absurd (source ▸ (InventoryAnalysis.mem_tasks task).2) other
        · exact ⟨document, root, source ▸ path, target ▸ under⟩

/-- Every document keeps its own legacy identifier exactly where none is handed out before its turn. -/
theorem keepsIds_iff (made : buildMappingPreview unicode analysis contextId time = .ok plan) :
    KeepsIds unicode analysis plan ↔ Undisturbed unicode time analysis plan := by
  have planGrants := grants_plan made
  obtain ⟨last, granted⟩ := planGrants.granted
  -- The grant to an entitled document keeps its identifier, unless that was handed out before.
  have turn : ∀ front grant back, grants unicode time analysis = front ++ grant :: back → ∀ id,
      Entitled unicode analysis plan grant.document id → (grant.id = id ↔ ¬HandedOut id front) := by
    intro front grant back split id entitled
    have member : grant ∈ grants unicode time analysis := split ▸ mem_append_right _ mem_cons_self
    refine (split ▸ granted).keeps_iff entitled.own (planGrants.accepts grant member id entitled.fits) ?_ numbered_of_observation
    intro other before carries
    have inside : other ∈ grants unicode time analysis := split ▸ mem_append_left _ before
    have same := entitled.sole other.document (planGrants.inside other inside) carries
    have apart := planGrants.apart
    rw [split, map_append, map_cons] at apart
    have twice : other.document.relativePath ∈ front.map fun grant => grant.document.relativePath := mem_map_of_mem before
    exact (nodup_append.mp apart).2.2 _ twice _ (same ▸ mem_cons_self) rfl
  constructor
  · intro keeps front grant back split id entitled
    obtain ⟨planned, inside, source, target⟩ := planGrants.listed grant (split ▸ mem_append_right _ mem_cons_self)
    have same : grant.id = id := target.symm.trans (keeps planned inside id (source ▸ entitled))
    exact (turn front grant back split id entitled).mp same
  · intro undisturbed planned inside id entitled
    obtain ⟨grant, member, source, target⟩ := planGrants.given planned inside
    obtain ⟨front, back, split⟩ := append_of_mem member
    have entitled' : Entitled unicode analysis plan grant.document id := source ▸ entitled
    exact target.symm.trans ((turn front grant back split id entitled').mpr (undisturbed front grant back split id entitled'))

end

/-! Two inventories -/

/-- The inventories differ in documents without identifiers alone. -/
def SameCarriers (one two : InventoryAnalysis) : Prop :=
  ∀ document : LegacyDocument, document.oldId.isSome = true → (document ∈ one.documents ↔ document ∈ two.documents)

/-- Every document keeps the legacy identifier that is its own, in the plans of both inventories; so its migrated identifier is the
same, whichever documents without identifiers there are. -/
structure Stable (unicode : UnicodeData) (one two : InventoryAnalysis) (plan other : MigrationPlan) : Prop where
  first : KeepsIds unicode one plan
  second : KeepsIds unicode two other
  same : ∀ planned ∈ plan.documents, ∀ planned' ∈ other.documents, planned.source = planned'.source →
    ∀ id, Entitled unicode one plan planned.source id →
      (planned.source.entityType = "task" → Entitled unicode two other planned.source id) → planned.targetId = planned'.targetId

section
variable {unicode : UnicodeData} {time : MigrationTime} {contextId : String} {one two : InventoryAnalysis} {plan other : MigrationPlan}

theorem Entitled.transfer {document : LegacyDocument} {id : String} (same : SameCarriers one two)
    (entitled : Entitled unicode one plan document id) (kind : document.entityType ≠ "task") : Entitled unicode two other document id where
  own := entitled.own
  sole := fun rival member carries => entitled.sole rival ((same rival (by rw [carries]; rfl)).mpr member) carries
  fits := by
    have fits := entitled.fits
    unfold Fits at fits ⊢
    rw [if_neg kind] at fits ⊢
    exact fits

/-- Legacy identifiers are stable exactly where none is handed out before the turn of the document whose own it is. -/
theorem stable_iff (made : buildMappingPreview unicode one contextId time = .ok plan)
    (made' : buildMappingPreview unicode two contextId time = .ok other) (same : SameCarriers one two) :
    Stable unicode one two plan other ↔ Undisturbed unicode time one plan ∧ Undisturbed unicode time two other := by
  rw [← keepsIds_iff made, ← keepsIds_iff made']
  constructor
  · exact fun stable => ⟨stable.first, stable.second⟩
  · intro ⟨first, second⟩
    refine ⟨first, second, ?_⟩
    intro planned member planned' member' source id entitled task
    have entitled' : Entitled unicode two other planned.source id := by
      by_cases kind : planned.source.entityType = "task"
      · exact task kind
      · exact entitled.transfer same kind
    calc planned.targetId = id := first planned member id entitled
      _ = planned'.targetId := (second planned' member' id (source ▸ entitled')).symm

theorem planProvenance_unneeded {documents : List PlannedDocument} {allocator : Allocator}
    (unneeded : ∀ document ∈ documents, needsProvenance document.source = false) :
    planProvenance unicode time documents allocator = .ok (documents, allocator) := by
  induction documents with
  | nil => rfl
  | cons document rest ih =>
    obtain ⟨first, others⟩ := forall_mem_cons.mp unneeded
    rw [planProvenance, if_neg (by simp [first]), ih others]
    rfl

theorem preview_of_documents {planned : List PlannedDocument} {allocator : Allocator} {analysis : InventoryAnalysis}
    (made : planDocuments unicode time contextId analysis.nonTasks ⟨[], []⟩ = .ok (planned, allocator)) (none : analysis.tasks = [])
    (unneeded : ∀ document ∈ analysis.nonTasks, needsProvenance document = false) :
    ∃ plan, buildMappingPreview unicode analysis contextId time = .ok plan ∧
      ∀ document, document ∈ plan.documents ↔ document ∈ planned := by
  have noTasks : planTasks unicode time contextId analysis.tasks allocator = .ok ([], allocator) := by
    rw [none]
    simp [planTasks, sortByPath, allocateRoots, planTaskDocuments]
    rfl
  have sources := (planDocuments_made made).2.1
  have permuted := mergeSort_perm planned fun one two =>
    decide (unicode.casefold one.source.relativePath ≤ unicode.casefold two.source.relativePath)
  have provenance : planProvenance unicode time
      (sortByPath unicode (fun planned : PlannedDocument => planned.source.relativePath) planned) allocator =
        .ok (sortByPath unicode (fun planned : PlannedDocument => planned.source.relativePath) planned, allocator) :=
    planProvenance_unneeded fun _ member => unneeded _ (sources ▸ mem_map_of_mem (permuted.mem_iff.mp member))
  rw [← append_nil planned] at provenance
  refine ⟨⟨contextId, _, sortByPath unicode ArtifactPlan.sourcePath ((analysis.files.filter (preserves analysis)).map artifactPlan)⟩,
    bind_ok.mpr ⟨_, made, bind_ok.mpr ⟨_, noTasks, bind_ok.mpr ⟨_, provenance, rfl⟩⟩⟩, fun document => ?_⟩
  rw [append_nil]
  exact permuted.mem_iff

end

/-! A decision with an identifier, and one without before it. -/

def sampleDecision (path : String) (oldId : Option String) : LegacyDocument where
  relativePath := path
  reportPath := path
  frontmatter := [("type", .string "decision")]
  body := ""
  entityType := "decision"
  oldId := oldId
  frontmatterSpans := [("type", (2, 2))]
  containsSecret := false
  unsafeContent := false

def namedDecision : LegacyDocument := sampleDecision "decisions/b.md" (some "DEC-2026-001")

def smallInventory : InventoryAnalysis where
  files := [⟨"decisions/b.md", "sha256:5f", true, some "decision", false, false⟩]
  documents := [namedDecision]
  apart := by decide

def largeInventory : InventoryAnalysis where
  files := [⟨"decisions/a.md", "sha256:5e", true, some "decision", false, false⟩,
    ⟨"decisions/b.md", "sha256:5f", true, some "decision", false, false⟩]
  documents := [sampleDecision "decisions/a.md" none, namedDecision]
  apart := by decide

theorem sameCarriers : SameCarriers smallInventory largeInventory := by
  intro document carries
  constructor
  · exact mem_cons_of_mem _
  · intro member
    rcases mem_cons.mp member with rfl | later
    · exact absurd carries (by decide)
    · exact later

theorem preview_of_decisions {analysis : InventoryAnalysis} {ids : List (String × String)}
    (given : ((planDocuments sampleFolding sampleTime "demo" analysis.nonTasks ⟨[], []⟩).toOption.map fun made =>
      made.1.map fun planned => (planned.source.relativePath, planned.targetId)) = some ids)
    (none : analysis.tasks = []) (unneeded : ∀ document ∈ analysis.nonTasks, needsProvenance document = false) :
    ∃ plan, buildMappingPreview sampleFolding analysis "demo" sampleTime = .ok plan ∧
      ∀ id ∈ ids, ∃ planned ∈ plan.documents, planned.source ∈ analysis.nonTasks ∧
        planned.source.relativePath = id.1 ∧ planned.targetId = id.2 := by
  cases made : planDocuments sampleFolding sampleTime "demo" analysis.nonTasks ⟨[], []⟩ with
  | error _ => simp [made, Except.toOption] at given
  | ok result =>
    obtain ⟨planned, allocator⟩ := result
    rw [made] at given
    cases given
    obtain ⟨plan, preview, members⟩ := preview_of_documents made none unneeded
    refine ⟨plan, preview, ?_⟩
    intro id member
    obtain ⟨document, inside, rfl⟩ := mem_map.mp member
    have source : document.source ∈ analysis.nonTasks := (planDocuments_made made).2.1 ▸ mem_map_of_mem inside
    exact ⟨document, (members document).mpr inside, source, rfl, rfl⟩

theorem small_preview : ∃ plan, buildMappingPreview sampleFolding smallInventory "demo" sampleTime = .ok plan ∧
    ∀ id ∈ [("decisions/b.md", "DEC-2026-001")], ∃ planned ∈ plan.documents, planned.source ∈ smallInventory.nonTasks ∧
      planned.source.relativePath = id.1 ∧ planned.targetId = id.2 :=
  preview_of_decisions (by decide +kernel) (by rfl) (by decide +kernel)

theorem large_preview : ∃ plan, buildMappingPreview sampleFolding largeInventory "demo" sampleTime = .ok plan ∧
    ∀ id ∈ [("decisions/a.md", "DEC-2026-001"), ("decisions/b.md", "DEC-2026-002")], ∃ planned ∈ plan.documents,
      planned.source ∈ largeInventory.nonTasks ∧ planned.source.relativePath = id.1 ∧ planned.targetId = id.2 :=
  preview_of_decisions (by decide +kernel) (by rfl) (by decide +kernel)

theorem stable_decisions : ∃ plan other, buildMappingPreview sampleFolding smallInventory "demo" sampleTime = .ok plan ∧
    buildMappingPreview sampleFolding largeInventory "demo" sampleTime = .ok other ∧
      (Stable sampleFolding smallInventory largeInventory plan other ↔
        Undisturbed sampleFolding sampleTime smallInventory plan ∧ Undisturbed sampleFolding sampleTime largeInventory other) := by
  obtain ⟨plan, made, _⟩ := small_preview
  obtain ⟨other, made', _⟩ := large_preview
  exact ⟨plan, other, made, made', stable_iff made made' sameCarriers⟩

theorem named_sole : ∀ other ∈ largeInventory.documents, other.oldId = some "DEC-2026-001" → other = namedDecision := by
  intro other member carries
  rcases mem_cons.mp member with rfl | later
  · exact absurd carries (by decide)
  · exact mem_singleton.mp later

/-- The document without an identifier is given that of the other. -/
theorem decision_is_renamed : ∃ plan other, buildMappingPreview sampleFolding smallInventory "demo" sampleTime = .ok plan ∧
    buildMappingPreview sampleFolding largeInventory "demo" sampleTime = .ok other ∧ SameCarriers smallInventory largeInventory ∧
      ¬Stable sampleFolding smallInventory largeInventory plan other := by
  obtain ⟨plan, made, _⟩ := small_preview
  obtain ⟨other, made', given⟩ := large_preview
  refine ⟨plan, other, made, made', sameCarriers, fun stable => ?_⟩
  obtain ⟨planned, member, inside, path, target⟩ := given ("decisions/b.md", "DEC-2026-002") (by decide)
  have source : planned.source = namedDecision := by
    rcases List.mem_cons.mp (InventoryAnalysis.mem_nonTasks inside).1 with first | second
    · rw [first] at path
      exact absurd path (by decide)
    · exact List.mem_singleton.mp second
  have entitled : Entitled sampleFolding largeInventory other namedDecision "DEC-2026-001" :=
    { own := rfl
      sole := named_sole
      fits := by
        unfold Fits
        rw [if_neg (by decide)]
        decide +kernel }
  have kept := stable.second planned member "DEC-2026-001" (source ▸ entitled)
  exact absurd (kept.symm.trans target) (by decide)

end Workctx.Migration
