import Workctx.Migration.Agreement
import Workctx.Owners.Lookup
import Workctx.Relational.Walks

/-! The hierarchy of the migrated tasks: every task is planned below the root that its parents lead to. -/

namespace Workctx.Migration
open Workctx.Concurrent Workctx.Domain Workctx.Topics Workctx.Relational List

section
variable (unicode : UnicodeData)

def parentPaths (tasks : List LegacyDocument) : Directory String (Option String) :=
  tasks.map fun task => (task.relativePath, resolveTaskParent unicode tasks task (authoredParent task))

/-- `parents.get(path)` -/
def parentOf (parents : Directory String (Option String)) (path : String) : Option String := (parents.get path).join

/-- `_root_task_path`, with whether the hierarchy is flattened; none where the loop takes more steps. -/
def rootAndFlattened (parents : Directory String (Option String)) : Nat → List String → String → Option (String × Bool)
  | 0, _, _ => none
  | steps + 1, chain, current =>
    if chain.contains current then some (leastPath unicode (chain.drop (chain.idxOf current)), true)
    else
      match parentOf parents current with
      | none => some (current, decide (2 < (chain ++ [current]).length))
      | some parent => rootAndFlattened parents steps (chain ++ [current]) parent

/-- `root_paths` of `_plan_tasks` -/
def rootOf (tasks : List LegacyDocument) (path : String) : String :=
  rootTaskPath unicode (parentPaths unicode tasks) (tasks.length + 1) [] path

/-- The tasks of which `_plan_tasks` reports that the hierarchy is flattened -/
def flattenedTasks (tasks : List LegacyDocument) : List LegacyDocument :=
  tasks.filter fun task => (rootAndFlattened unicode (parentPaths unicode tasks) (tasks.length + 1) [] task.relativePath).any Prod.snd

def migratedTask (models : Owners.Models) (fields : Owners.TaskHead) (planned : PlannedDocument) : Owners.Projection.Task :=
  ⟨planned.targetId, ((models.parseUri planned.targetUri).map WorkctxUri.contextId).getD "",
    { fields with
      isSubtask := planned.taskParentId.isSome
      parentTask := planned.taskParentId
      rootTask := (planned.taskRootId.filter fun root => root != "").getD planned.targetId }⟩

/-! The parents of some tasks. -/

section
variable (tasks : List LegacyDocument)

def Parent (path parent : String) : Prop := Link (parentOf (parentPaths unicode tasks)) path parent

def LeadsTo (path ancestor : String) : Prop := Reaches (parentOf (parentPaths unicode tasks)) path ancestor

def OnCycle (path : String) : Prop := Recurs (parentOf (parentPaths unicode tasks)) path

/-- No cycle of parents has two members of which the case-folded paths are least. -/
def DistinctLeast : Prop :=
  ∀ one two, OnCycle unicode tasks one → LeadsTo unicode tasks one two →
    (∀ path, LeadsTo unicode tasks one path → unicode.casefold one ≤ unicode.casefold path) →
      unicode.casefold two ≤ unicode.casefold one → one = two

structure PlannedFlat (roots : String → String) (planned : List PlannedDocument) : Prop where
  sources : (planned.map PlannedDocument.source).Perm tasks
  below : ∀ document ∈ planned, ∃ root ∈ planned, root.source.relativePath = roots document.source.relativePath ∧
    root.taskParentId = none ∧ root.taskRootId = some root.targetId ∧ document.taskRootId = some root.targetId ∧
      document.taskParentId = if document.source.relativePath = roots document.source.relativePath then none else some root.targetId
  valid : ∀ (models : Owners.Models) (fields : PlannedDocument → Owners.TaskHead),
    Owners.Projection.validateTaskHierarchy (planned.map fun document => migratedTask models (fields document) document) = true

structure Flattens : Prop where
  terminates : ∀ task ∈ tasks, ∀ steps, tasks.length < steps → ∃ flattened,
    rootAndFlattened unicode (parentPaths unicode tasks) steps [] task.relativePath = some (rootOf unicode tasks task.relativePath, flattened)
  fixed : ∀ task ∈ tasks, rootOf unicode tasks (rootOf unicode tasks task.relativePath) = rootOf unicode tasks task.relativePath
  reached : ∀ task ∈ tasks, LeadsTo unicode tasks task.relativePath (rootOf unicode tasks task.relativePath)
  shared : ∀ one ∈ tasks, ∀ two ∈ tasks, ∀ path, OnCycle unicode tasks path → LeadsTo unicode tasks one.relativePath path →
    LeadsTo unicode tasks two.relativePath path → rootOf unicode tasks one.relativePath = rootOf unicode tasks two.relativePath
  planned : ∀ (time : MigrationTime) (contextId : String) (allocator later : Allocator) (planned : List PlannedDocument),
    planTasks unicode time contextId tasks allocator = .ok (planned, later) → PlannedFlat tasks (rootOf unicode tasks) planned
  reported : ∀ task ∈ tasks, task ∈ flattenedTasks unicode tasks ↔
    (rootOf unicode tasks task.relativePath ≠ task.relativePath ∧
        ¬Parent unicode tasks task.relativePath (rootOf unicode tasks task.relativePath)) ∨
      ∃ path, OnCycle unicode tasks path ∧ LeadsTo unicode tasks task.relativePath path

end
end

/-! The least path -/

section
variable {unicode : UnicodeData}

theorem path_le_trans {α : Type} (path : α → String) (one two three : α)
    (first : decide (unicode.casefold (path one) ≤ unicode.casefold (path two)) = true)
    (second : decide (unicode.casefold (path two) ≤ unicode.casefold (path three)) = true) :
    decide (unicode.casefold (path one) ≤ unicode.casefold (path three)) = true :=
  decide_eq_true (String.le_trans (of_decide_eq_true first) (of_decide_eq_true second))

theorem path_le_total {α : Type} (path : α → String) (one two : α) :
    (decide (unicode.casefold (path one) ≤ unicode.casefold (path two)) ||
      decide (unicode.casefold (path two) ≤ unicode.casefold (path one))) = true := by
  rw [Bool.or_eq_true, decide_eq_true_eq, decide_eq_true_eq]
  exact String.le_total _ _

theorem leastPath_spec {paths : List String} (present : paths ≠ []) :
    leastPath unicode paths ∈ paths ∧ ∀ path ∈ paths, unicode.casefold (leastPath unicode paths) ≤ unicode.casefold path := by
  have permuted := mergeSort_perm paths fun one two => decide (unicode.casefold (id one) ≤ unicode.casefold (id two))
  have sorted := pairwise_mergeSort (@path_le_trans unicode _ id) (@path_le_total unicode _ id) paths
  unfold leastPath sortByPath
  cases order : paths.mergeSort fun one two => decide (unicode.casefold (id one) ≤ unicode.casefold (id two)) with
  | nil =>
    rw [order] at permuted
    exact absurd permuted.nil_eq.symm present
  | cons first rest =>
    rw [order] at permuted sorted
    refine ⟨permuted.mem_iff.mp mem_cons_self, ?_⟩
    intro path member
    rcases mem_cons.mp (permuted.mem_iff.mpr member) with here | later
    · exact here ▸ String.le_refl _
    · exact of_decide_eq_true ((pairwise_cons.mp sorted).1 path later)

theorem leastPath_first {first : String} {rest : List String}
    (least : ∀ path ∈ first :: rest, unicode.casefold first ≤ unicode.casefold path) : leastPath unicode (first :: rest) = first := by
  obtain ⟨before, after, order, split, passed⟩ := mergeSort_cons (@path_le_trans unicode _ id) (@path_le_total unicode _ id) first rest
  unfold leastPath sortByPath
  rw [order]
  cases before with
  | nil => rfl
  | cons other more =>
    have inside : other ∈ rest := by
      have placed : other ∈ rest.mergeSort fun one two => decide (unicode.casefold (id one) ≤ unicode.casefold (id two)) := by
        rw [split]
        exact mem_append_left _ mem_cons_self
      exact (mergeSort_perm rest _).mem_iff.mp placed
    have behind := passed other mem_cons_self
    rw [Bool.not_eq_true', decide_eq_false_iff_not] at behind
    exact absurd (least other (mem_cons_of_mem _ inside)) behind

/-! The walk to the root -/

/-- The root at which a walk ends, and whether the hierarchy is flattened. -/
def outcome (unicode : UnicodeData) : Ending String → String × Bool
  | .stops trail last => (last, decide (2 < (trail ++ [last]).length))
  | .turns circle => (leastPath unicode circle, true)

theorem rootAndFlattened_walk (parents : Directory String (Option String)) (steps : Nat) (chain : List String) (current : String) :
    rootAndFlattened unicode parents steps chain current = (walk (parentOf parents) steps chain current).map (outcome unicode) := by
  induction steps generalizing chain current with
  | zero => rfl
  | succ steps ih =>
    rw [rootAndFlattened, walk]
    by_cases member : current ∈ chain
    · rw [if_pos (contains_iff_mem.mpr member), if_pos member]
      rfl
    · rw [if_neg (fun inside => member (contains_iff_mem.mp inside)), if_neg member]
      cases parentOf parents current with
      | none => rfl
      | some parent => exact ih _ _

theorem rootTaskPath_walk {parents : Directory String (Option String)} {steps : Nat} {chain : List String} {current : String}
    {ending : Ending String} (walked : walk (parentOf parents) steps chain current = some ending) :
    rootTaskPath unicode parents steps chain current = (outcome unicode ending).1 := by
  induction steps generalizing chain current with
  | zero => cases walked
  | succ steps ih =>
    rw [walk] at walked
    rw [rootTaskPath]
    split at walked
    · next member =>
      rw [if_pos (contains_iff_mem.mpr member), ← Option.some.inj walked]
      rfl
    · next fresh =>
      rw [if_neg (fun inside => fresh (contains_iff_mem.mp inside))]
      unfold parentOf at walked
      cases link : (parents.get current).join with
      | none =>
        rw [link] at walked
        rw [← Option.some.inj walked]
        rfl
      | some parent =>
        rw [link] at walked
        exact ih walked

variable {tasks : List LegacyDocument}

variable {path contextId : String}

theorem resolveTaskParent_mem {task : LegacyDocument} {authored : Option Yaml}
    (resolved : resolveTaskParent unicode tasks task authored = some path) : path ∈ tasks.map LegacyDocument.relativePath := by
  unfold resolveTaskParent at resolved
  split at resolved
  · cases resolved
  · next value _ =>
    dsimp only at resolved
    split at resolved
    · cases resolved
    · split at resolved
      · next first _ order =>
        have inside := (mergeSort_perm _ _).mem_iff.mp (order ▸ mem_cons_self)
        rw [← Option.some.inj resolved]
        exact mem_map_of_mem (mem_of_mem_filter inside)
      · split at resolved
        · next found =>
          obtain ⟨other, member, same⟩ := any_eq_true.mp found
          rw [← Option.some.inj resolved, ← eq_of_beq same]
          exact mem_map_of_mem member
        · cases resolved

theorem parent_mem {parent : String} (link : Parent unicode tasks path parent) :
    parent ∈ tasks.map LegacyDocument.relativePath := by
  have got := Option.join_eq_some_iff.mp link
  obtain ⟨task, _, same⟩ := mem_map.mp (Directory.mem_of_get got)
  exact resolveTaskParent_mem (Prod.mk.inj same).2

theorem walk_of_mem (member : path ∈ tasks.map LegacyDocument.relativePath) :
    ∃ ending, Ended (parentOf (parentPaths unicode tasks)) path ending ∧ rootOf unicode tasks path = (outcome unicode ending).1 ∧
      ∀ steps, tasks.length < steps →
        rootAndFlattened unicode (parentPaths unicode tasks) steps [] path = some (outcome unicode ending) := by
  obtain ⟨ending, walked⟩ : ∃ ending, walk (parentOf (parentPaths unicode tasks)) (tasks.length + 1) [] path = some ending :=
    walk_isSome (fun _ _ link => parent_mem link) nodup_nil (nil_subset (tasks.map LegacyDocument.relativePath)) member
      (by simp)
  refine ⟨ending, walk_ended walked rfl nodup_nil (isChain_singleton _), rootTaskPath_walk walked, ?_⟩
  intro steps enough
  rw [rootAndFlattened_walk, walk_mono enough walked]
  rfl

/-! Roots -/

theorem cycle_mem (cycle : OnCycle unicode tasks path) : path ∈ tasks.map LegacyDocument.relativePath := by
  obtain ⟨_, _, link⟩ := Relation.TransGen.tail'_iff.mp cycle
  exact parent_mem link

section
variable (member : path ∈ tasks.map LegacyDocument.relativePath)
include member

theorem leadsTo_mem {ancestor : String}
    (leads : LeadsTo unicode tasks path ancestor) : ancestor ∈ tasks.map LegacyDocument.relativePath := by
  rcases Relation.ReflTransGen.cases_tail leads with same | ⟨_, _, link⟩
  · exact same ▸ member
  · exact parent_mem link

theorem rootOf_reached :
    LeadsTo unicode tasks path (rootOf unicode tasks path) := by
  obtain ⟨ending, ended, root, _⟩ := walk_of_mem member
  rw [root]
  cases ending with
  | stops trail last => exact ended.reaches_last
  | turns circle =>
    obtain ⟨first, opens, _, _, _⟩ := ended.circle
    exact (ended.recurs _ (leastPath_spec (ne_nil_of_mem (mem_of_head? opens))).1).1

theorem rootOf_cycle {ancestor : String}
    (leads : LeadsTo unicode tasks path ancestor) (cycle : OnCycle unicode tasks ancestor) :
    LeadsTo unicode tasks ancestor (rootOf unicode tasks path) ∧
      ∀ other, LeadsTo unicode tasks ancestor other → unicode.casefold (rootOf unicode tasks path) ≤ unicode.casefold other := by
  obtain ⟨ending, ended, root, _⟩ := walk_of_mem member
  rw [root]
  cases ending with
  | stops trail last => exact absurd cycle (ended.not_recurs leads)
  | turns circle =>
    obtain ⟨first, opens, _, recurs, members⟩ := ended.circle
    obtain ⟨inside, least⟩ := leastPath_spec (ne_nil_of_mem (mem_of_head? opens))
    have turning : LeadsTo unicode tasks first ancestor := (members ancestor).mp (ended.mem_circle leads cycle)
    exact ⟨recurs.meets turning ((members _).mp inside), fun other further => least other ((members other).mpr (turning.trans further))⟩

end

theorem rootOf_least (cycle : OnCycle unicode tasks path)
    (least : ∀ other, LeadsTo unicode tasks path other → unicode.casefold path ≤ unicode.casefold other) :
    rootOf unicode tasks path = path := by
  obtain ⟨ending, ended, root, _⟩ := walk_of_mem (cycle_mem cycle)
  rw [root]
  cases ending with
  | stops trail last => exact absurd cycle (ended.not_recurs .refl)
  | turns circle =>
    obtain ⟨rest, rfl⟩ := head?_eq_some_iff.mp (ended.opens cycle)
    exact leastPath_first fun other member => least other (ended.recurs other member).1

theorem rootOf_rootOf (member : path ∈ tasks.map LegacyDocument.relativePath) :
    rootOf unicode tasks (rootOf unicode tasks path) = rootOf unicode tasks path := by
  by_cases turns : ∃ ancestor, LeadsTo unicode tasks path ancestor ∧ OnCycle unicode tasks ancestor
  · obtain ⟨ancestor, leads, cycle⟩ := turns
    obtain ⟨onward, least⟩ := rootOf_cycle member leads cycle
    exact rootOf_least (cycle.onward onward) fun other further => least other (onward.trans further)
  · -- The walk stops at the root, which has no parent.
    obtain ⟨ending, ended, root, _⟩ := walk_of_mem member
    have leads : LeadsTo unicode tasks path (rootOf unicode tasks path) := rootOf_reached member
    cases ended with
    | stops _ _ _ final =>
      rw [root] at leads ⊢
      exact (rootOf_reached (leadsTo_mem member leads)).eq_of_final final
    | @turns front circle first starts opens distinct linked =>
      obtain ⟨_, _, reached, recurs, _⟩ := (Ended.turns starts opens distinct linked).circle
      exact absurd ⟨_, reached, recurs⟩ turns

theorem shared_of_distinctLeast (distinct : DistinctLeast unicode tasks) {one two : String}
    (first : one ∈ tasks.map LegacyDocument.relativePath) (second : two ∈ tasks.map LegacyDocument.relativePath)
    (cycle : OnCycle unicode tasks path) (leads : LeadsTo unicode tasks one path) (also : LeadsTo unicode tasks two path) :
    rootOf unicode tasks one = rootOf unicode tasks two := by
  obtain ⟨onward, least⟩ := rootOf_cycle first leads cycle
  obtain ⟨further, lowest⟩ := rootOf_cycle second also cycle
  exact distinct _ _ (cycle.onward onward) (cycle.meets onward further) (fun other behind => least other (onward.trans behind))
    (lowest _ onward)

theorem flattened_iff {task : LegacyDocument} (member : task ∈ tasks) :
    task ∈ flattenedTasks unicode tasks ↔
      (rootOf unicode tasks task.relativePath ≠ task.relativePath ∧
          ¬Parent unicode tasks task.relativePath (rootOf unicode tasks task.relativePath)) ∨
        ∃ path, OnCycle unicode tasks path ∧ LeadsTo unicode tasks task.relativePath path := by
  obtain ⟨ending, ended, root, walked⟩ := walk_of_mem (mem_map_of_mem (f := LegacyDocument.relativePath) member)
  unfold flattenedTasks
  rw [mem_filter, walked _ (Nat.lt_succ_self _), Option.any_some, root]
  cases ending with
  | stops trail last =>
    have straight : ¬∃ path, OnCycle unicode tasks path ∧ LeadsTo unicode tasks task.relativePath path :=
      fun ⟨path, cycle, leads⟩ => ended.not_recurs leads cycle
    have long : (outcome unicode (.stops trail last)).2 = true ↔ last ≠ task.relativePath ∧ ¬Parent unicode tasks task.relativePath last :=
      decide_eq_true_iff.trans ended.long_iff
    rw [long, or_iff_left straight]
    exact and_iff_right member
  | turns circle =>
    obtain ⟨first, _, reached, recurs, _⟩ := ended.circle
    exact ⟨fun _ => .inr ⟨first, recurs, reached⟩, fun _ => ⟨member, rfl⟩⟩

/-! The planned tasks -/

theorem plannedDocument_valid {targetId : String} {document : LegacyDocument} {planned : PlannedDocument}
    (made : plannedDocument contextId document targetId = .ok planned) :
    validUri ⟨contextId, document.entityType, targetId⟩ = true := by
  unfold plannedDocument at made
  split at made
  · cases made
  · next valid => simpa using valid

structure Placed (contextId : String) (roots : LegacyDocument → String) (rootIds : Directory String String)
    (planned : PlannedDocument) (rootId : String) : Prop where
  found : rootIds.get (roots planned.source) = some rootId
  root : planned.taskRootId = some rootId
  parent : planned.taskParentId = if planned.source.relativePath = roots planned.source then none else some rootId
  own : planned.source.relativePath = roots planned.source → planned.targetId = rootId
  addressed : planned.Addressed contextId
  valid : validUri ⟨contextId, planned.source.entityType, planned.targetId⟩ = true

theorem planTaskDocuments_placed {roots : LegacyDocument → String} {rootIds : Directory String String}
    {allocator later : Allocator} {planned : List PlannedDocument}
    (made : planTaskDocuments contextId roots rootIds tasks allocator = .ok (planned, later)) :
    ∀ document ∈ planned, ∃ rootId, Placed contextId roots rootIds document rootId := by
  induction tasks generalizing allocator planned with
  | nil =>
    obtain ⟨rfl, _⟩ := Prod.mk.inj (Except.ok.inj made)
    exact forall_mem_nil _
  | cons task rest ih =>
    rw [planTaskDocuments] at made
    obtain ⟨rootId, lookup, choosing⟩ := bind_ok.mp made
    obtain ⟨⟨targetId, reserved⟩, chosen, planning⟩ := bind_ok.mp choosing
    obtain ⟨base, first, remaining⟩ := bind_ok.mp planning
    obtain ⟨⟨more, last⟩, others, done⟩ := bind_ok.mp remaining
    cases done
    obtain ⟨source, target, uri⟩ := plannedDocument_made first
    have valid := plannedDocument_valid first
    have found : rootIds.get (roots task) = some rootId := by
      cases got : rootIds.get (roots task) with
      | none => simp [got] at lookup
      | some id =>
        rw [got] at lookup
        exact congrArg some (Except.ok.inj lookup)
    have own : task.relativePath = roots task → targetId = rootId := by
      intro root
      rw [taskTarget, if_pos root] at chosen
      exact (Prod.mk.inj (Except.ok.inj chosen)).1.symm
    refine forall_mem_cons.mpr ⟨⟨rootId, ?_⟩, ih others⟩
    exact
      { found := source ▸ found
        root := rfl
        parent := by
          dsimp only
          rw [source]
        own := by
          intro root
          dsimp only at root ⊢
          rw [source] at root
          exact target.trans (own root)
        addressed := uri
        valid := by
          dsimp only
          rw [source, target]
          exact valid }

section
variable {time : MigrationTime} {contextId : String} {allocator later : Allocator} {planned : List PlannedDocument}

section
variable (made : planTasks unicode time contextId tasks allocator = .ok (planned, later))
include made

theorem planTasks_placed :
    ∃ rootIds, ∀ document ∈ planned, ∃ rootId,
      Placed contextId (fun task => rootOf unicode tasks task.relativePath) rootIds document rootId := by
  unfold planTasks at made
  dsimp only at made
  obtain ⟨⟨rootIds, reserved⟩, _, rest⟩ := bind_ok.mp made
  exact ⟨rootIds, planTaskDocuments_placed rest⟩

theorem planTasks_below
    (sources : (planned.map PlannedDocument.source).Perm tasks) :
    ∀ document ∈ planned, ∃ root ∈ planned, root.source.relativePath = rootOf unicode tasks document.source.relativePath ∧
      root.taskParentId = none ∧ root.taskRootId = some root.targetId ∧ document.taskRootId = some root.targetId ∧
        document.taskParentId =
          if document.source.relativePath = rootOf unicode tasks document.source.relativePath then none else some root.targetId := by
  obtain ⟨rootIds, placed⟩ := planTasks_placed made
  intro document member
  obtain ⟨rootId, place⟩ := placed document member
  have task : document.source.relativePath ∈ tasks.map LegacyDocument.relativePath :=
    mem_map_of_mem (sources.mem_iff.mp (mem_map_of_mem member))
  obtain ⟨source, inside, path⟩ := mem_map.mp (leadsTo_mem task (rootOf_reached task))
  obtain ⟨root, planned_, rfl⟩ := mem_map.mp (sources.mem_iff.mpr inside)
  obtain ⟨ownId, own⟩ := placed root planned_
  have fixed : root.source.relativePath = rootOf unicode tasks root.source.relativePath := by
    rw [path]
    exact (rootOf_rootOf task).symm
  have same : ownId = rootId := by
    have found := own.found
    rw [← fixed, path] at found
    exact Option.some.inj (found.symm.trans place.found)
  have id : root.targetId = rootId := (own.own fixed).trans same
  refine ⟨root, planned_, path, ?_, ?_, ?_, ?_⟩
  · exact own.parent.trans (if_pos fixed)
  · rw [own.root, same, id]
  · rw [place.root, id]
  · rw [id]
    exact place.parent

theorem planTasks_valid
    (sources : (planned.map PlannedDocument.source).Perm tasks) (unique : (planned.map PlannedDocument.targetId).Nodup)
    (models : Owners.Models) (fields : PlannedDocument → Owners.TaskHead) :
    Owners.Projection.validateTaskHierarchy (planned.map fun document => migratedTask models (fields document) document) = true := by
  obtain ⟨rootIds, placed⟩ := planTasks_placed made
  have below := planTasks_below made sources
  have named : ∀ document ∈ planned, document.targetId ≠ "" := by
    intro document member empty
    obtain ⟨_, place⟩ := placed document member
    have valid := place.valid
    rw [empty] at valid
    simp [validUri] at valid
  have ids : ((planned.map fun document => migratedTask models (fields document) document).map Owners.Projection.Task.id).Nodup := by
    rw [map_map]
    exact unique
  refine @Owners.Projection.validateTaskHierarchy_of _ contextId ids ?_ ?_
  · intro task member
    obtain ⟨document, inside, rfl⟩ := mem_map.mp member
    obtain ⟨_, place⟩ := placed document inside
    have addressed : document.targetUri = _ := place.addressed
    simp only [migratedTask, addressed, models.parse_uriText _ place.valid, Option.map_some, Option.getD_some]
  · intro task member subtask
    obtain ⟨document, inside, rfl⟩ := mem_map.mp member
    obtain ⟨root, also, _, top, own, under, parent⟩ := below document inside
    have apart : document.source.relativePath ≠ rootOf unicode tasks document.source.relativePath := by
      intro self
      rw [if_pos self] at parent
      simp [migratedTask, parent] at subtask
    rw [if_neg apart] at parent
    have kept : (some root.targetId).filter (fun id => id != "") = some root.targetId := by simp [Option.filter, named root also]
    exact ⟨_, mem_map_of_mem also, parent, by simp [migratedTask, top], by simp [migratedTask, own, under, kept]⟩

end

end

/-! The flattening -/

theorem planned_flat (apart : (tasks.map LegacyDocument.relativePath).Nodup) {time : MigrationTime}
    {allocator later : Allocator} {planned : List PlannedDocument}
    (made : planTasks unicode time contextId tasks allocator = .ok (planned, later)) :
    PlannedFlat tasks (rootOf unicode tasks) planned := by
  obtain ⟨unique, sources, _, _⟩ := planTasks_made made apart
  exact ⟨sources, planTasks_below made sources, planTasks_valid made sources unique⟩

theorem distinctLeast_of_nodup (folded : (tasks.map fun task => unicode.casefold task.relativePath).Nodup) :
    DistinctLeast unicode tasks := by
  intro one two cycle leads least lowest
  obtain ⟨first, member, rfl⟩ := mem_map.mp (cycle_mem cycle)
  obtain ⟨second, also, rfl⟩ := mem_map.mp (cycle_mem (cycle.onward leads))
  have same := String.le_antisymm (least _ leads) lowest
  exact congrArg LegacyDocument.relativePath (inj_on_of_nodup_map folded member also same)

/-- The hierarchy is flattened exactly where every cycle of parents has one least member. -/
theorem flattens_iff (apart : (tasks.map LegacyDocument.relativePath).Nodup) :
    Flattens unicode tasks ↔ DistinctLeast unicode tasks := by
  constructor
  · intro flat one two cycle leads least lowest
    have same : rootOf unicode tasks one = rootOf unicode tasks two := by
      obtain ⟨first, member, rfl⟩ := List.mem_map.mp (cycle_mem cycle)
      obtain ⟨second, also, rfl⟩ := List.mem_map.mp (cycle_mem (cycle.onward leads))
      exact flat.shared first member second also _ (cycle.onward leads) leads .refl
    calc one = rootOf unicode tasks one := (rootOf_least cycle least).symm
      _ = rootOf unicode tasks two := same
      _ = two := rootOf_least (cycle.onward leads) fun other further => String.le_trans lowest (least other (leads.trans further))
  · intro distinct
    constructor
    · intro task member steps enough
      obtain ⟨ending, _, root, walked⟩ := walk_of_mem (List.mem_map_of_mem (f := LegacyDocument.relativePath) member)
      exact ⟨(outcome unicode ending).2, by rw [walked steps enough, root]⟩
    · exact fun task member => rootOf_rootOf (List.mem_map_of_mem member)
    · exact fun task member => rootOf_reached (List.mem_map_of_mem member)
    · intro one first two second path cycle leads also
      exact shared_of_distinctLeast distinct (List.mem_map_of_mem first) (List.mem_map_of_mem second) cycle leads also
    · exact fun _ _ _ _ _ made => planned_flat apart made
    · exact fun task member => flattened_iff member

end

/-! Tasks that name each other as their parents. -/

def sampleTask (path parent : String) : LegacyDocument where
  relativePath := path
  reportPath := path
  frontmatter := [("type", .string "task"), ("parent", .string parent)]
  body := ""
  entityType := "task"
  oldId := none
  frontmatterSpans := [("type", (2, 2)), ("parent", (3, 3))]
  containsSecret := false
  unsafeContent := false

/-- A task that leads through another into a cycle of three. -/
def loopTasks : List LegacyDocument :=
  [sampleTask "tasks/deep.md" "lead.md", sampleTask "tasks/lead.md" "two.md", sampleTask "tasks/one.md" "two.md",
    sampleTask "tasks/three.md" "one.md", sampleTask "tasks/two.md" "three.md"]

theorem flattens_loop : Flattens sampleFolding loopTasks :=
  (flattens_iff (by decide)).mpr (distinctLeast_of_nodup (by decide +kernel))

/-- The members of a cycle of which the paths are equal but for their case -/
def twinTasks : List LegacyDocument := [sampleTask "tasks/Plan.md" "plan.md", sampleTask "tasks/plan.md" "Plan.md"]

theorem twins_have_two_roots : ¬Flattens sampleFolding twinTasks := by
  intro flat
  have onward : Parent sampleFolding twinTasks "tasks/Plan.md" "tasks/plan.md" := by
    unfold Parent Link
    decide +kernel
  have back : Parent sampleFolding twinTasks "tasks/plan.md" "tasks/Plan.md" := by
    unfold Parent Link
    decide +kernel
  have first : OnCycle sampleFolding twinTasks "tasks/Plan.md" := (Relation.TransGen.single onward).tail back
  have second : OnCycle sampleFolding twinTasks "tasks/plan.md" := (Relation.TransGen.single back).tail onward
  have folded : ∀ path ∈ twinTasks.map LegacyDocument.relativePath, sampleFolding.casefold path = "tasks/plan.md" := by decide +kernel
  have own : ∀ path, OnCycle sampleFolding twinTasks path → rootOf sampleFolding twinTasks path = path := by
    intro path cycle
    refine rootOf_least cycle fun other leads => ?_
    have same := (folded path (cycle_mem cycle)).trans (folded other (leadsTo_mem (cycle_mem cycle) leads)).symm
    exact same ▸ String.le_refl _
  have same := flat.shared _ List.mem_cons_self _ (List.mem_cons_of_mem _ List.mem_cons_self) "tasks/Plan.md" first .refl (.single back)
  have roots : "tasks/Plan.md" = "tasks/plan.md" := (own _ first).symm.trans (same.trans (own _ second))
  exact absurd roots (by decide)

end Workctx.Migration
