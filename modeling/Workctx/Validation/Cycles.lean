import Mathlib.Data.Set.Lattice
import Mathlib.Algebra.Order.BigOperators.Group.List
import Mathlib.Algebra.Order.Group.Nat
import Mathlib.Algebra.Ring.Nat
import Workctx.Concurrent.Directory
import Workctx.Search.FinishOrder
import Workctx.Search.Sorted

/-! The cycles of a relation between documents: two searches in depth, along the edges and then against them. -/

namespace Workctx.Validation
open Workctx.Concurrent Workctx.Search Relation List

structure AdjacencyMap (α : Type) where
  entries : Directory α (List α)
  distinct : (entries.map Prod.fst).Nodup

section
variable {α : Type} [DecidableEq α]

namespace AdjacencyMap

/-- `graph.get(node, set())` -/
def targets (graph : AdjacencyMap α) (node : α) : List α := (graph.entries.get node).getD []

def nodes (graph : AdjacencyMap α) : List α := graph.entries.map Prod.fst ++ graph.entries.flatMap Prod.snd

/-- `transpose[node]` -/
def sources (graph : AdjacencyMap α) (node : α) : List α :=
  (graph.entries.filter fun entry => entry.2.contains node).map Prod.fst

def Edge (graph : AdjacencyMap α) (one two : α) : Prop := two ∈ graph.targets one

/-- Two mappings of the same nodes to the same sets, in whatever order they are given. -/
def Same (one two : AdjacencyMap α) : Prop :=
  (∀ node, node ∈ one.nodes ↔ node ∈ two.nodes) ∧ ∀ node target, one.Edge node target ↔ two.Edge node target

end AdjacencyMap

section
variable (successors predecessors : α → List α)

/-- The loop over the open nodes, each with the targets that are left of it; so many of its turns. -/
def visit : Nat → List α → List α → List (α × List α) → List α × List α
  | 0, visited, finished, _ => (visited, finished)
  | _ + 1, visited, finished, [] => (visited, finished)
  | turns + 1, visited, finished, (node, []) :: pending => visit turns visited (node :: finished) pending
  | turns + 1, visited, finished, (node, target :: targets) :: pending =>
    if target ∈ visited then visit turns visited finished ((node, targets) :: pending)
    else visit turns (target :: visited) finished ((target, successors target) :: (node, targets) :: pending)

def weight (node : α) : Nat := (successors node).length + 1

/-- `finish_order`, with the last node first, and the nodes that are visited. -/
def finishOrder (turns : Nat) : List α → List α × List α → List α × List α
  | [], state => state
  | start :: rest, (visited, finished) =>
    if start ∈ visited then finishOrder turns rest (visited, finished)
    else finishOrder turns rest (visit successors turns (start :: visited) finished [(start, successors start)])

/-- The loop over the nodes of a component whose sources are still to be looked at, with the next one first. -/
def gather : Nat → List α → List α → List α → List α × List α
  | 0, assigned, component, _ => (assigned, component)
  | _ + 1, assigned, component, [] => (assigned, component)
  | turns + 1, assigned, component, node :: pending =>
    let fresh := (predecessors node).filter fun source => source ∉ assigned
    gather turns (fresh ++ assigned) (node :: component) (fresh ++ pending)

/-- A component of several nodes, or of one that leads to itself. -/
def isCyclic (component : List α) : Bool :=
  decide (1 < component.length) || component.any fun member => (successors member).contains member

/-- `components` -/
def assign (turns : Nat) : List α → List α → List (List α)
  | [], _ => []
  | start :: rest, assigned =>
    if start ∈ assigned then assign turns rest assigned
    else
      let (taken, component) := gather predecessors turns (start :: assigned) [] [start]
      (if isCyclic successors component then [component] else []) ++ assign turns rest taken

end

end

section
variable {α : Type} [LinearOrder α]

/-- By `min(component)` -/
def smallestFirst (one two : List α) : Bool :=
  match one.min?, two.min? with
  | some first, some second => decide (first ≤ second)
  | none, _ => true
  | some _, none => false

/-- `_cyclic_components` on the nodes in order, with the targets and the sources of each in order. -/
def orderedComponents (nodes : List α) (successors predecessors : α → List α) : List (List α) :=
  let turns := (nodes.map (weight successors)).sum
  let finished := (finishOrder successors turns nodes ([], [])).2
  (assign successors predecessors turns finished []).mergeSort smallestFirst

def cyclicComponents (graph : AdjacencyMap α) : List (List α) :=
  orderedComponents (sortedSet graph.nodes) (fun node => sortedSet (graph.targets node)) fun node => sortedSet (graph.sources node)

end

/-! The first search. -/

section
variable {α : Type}

def leftOver [DecidableEq α] (successors : α → List α) (nodes visited : List α) (pending : List (α × List α)) : Nat :=
  ((nodes.filter fun node => node ∉ visited).map (weight successors)).sum + (pending.map fun frame => frame.2.length + 1).sum

structure Visiting (successors : α → List α) (nodes visited finished : List α) (pending : List (α × List α)) : Prop where
  searched : Searched (fun one two => two ∈ successors one) finished (pending.map Prod.fst)
  known : ∀ node, node ∈ visited ↔ node ∈ finished ∨ node ∈ pending.map Prod.fst
  inside : ∀ node ∈ visited, node ∈ nodes
  left : ∀ frame ∈ pending, ∀ next ∈ successors frame.1, next ∈ visited ∨ next ∈ frame.2
  ahead : ∀ frame ∈ pending, ∀ next ∈ frame.2, next ∈ successors frame.1

section
variable {successors : α → List α} {nodes visited finished : List α} {pending : List (α × List α)}

variable [DecidableEq α]

theorem filter_unvisited (distinct : nodes.Nodup) {node : α} (member : node ∈ nodes) (new : node ∉ visited) :
    (nodes.filter fun other => other ∉ visited).Perm (node :: nodes.filter fun other => other ∉ node :: visited) := by
  have first : (nodes.filter fun other => other ∉ visited).Nodup := distinct.filter _
  have second : (node :: nodes.filter fun other => other ∉ node :: visited).Nodup :=
    nodup_cons.mpr ⟨by simp, distinct.filter _⟩
  refine (perm_ext_iff_of_nodup first second).mpr fun other => ?_
  simp only [mem_filter, mem_cons, decide_eq_true_eq, not_or]
  by_cases same : other = node
  · subst same
    simp [member, new]
  · simp [same]

theorem leftOver_open (distinct : nodes.Nodup) {node : α} (member : node ∈ nodes) (new : node ∉ visited) :
    leftOver successors nodes (node :: visited) ((node, successors node) :: pending) = leftOver successors nodes visited pending := by
  unfold leftOver
  rw [((filter_unvisited distinct member new).map _).sum_nat, map_cons, map_cons, sum_cons, sum_cons]
  unfold weight
  dsimp only
  omega

omit [DecidableEq α] in
theorem Visiting.begin (visiting : Visiting successors nodes visited finished []) {node : α} (member : node ∈ nodes)
    (new : node ∉ visited) : Visiting successors nodes (node :: visited) finished [(node, successors node)] where
  searched := by
    have fresh : node ∉ finished ++ [] := by
      intro known
      exact new ((visiting.known node).mpr (mem_append.mp known))
    exact visiting.searched.open fresh (by simp)
  known := by
    intro other
    have before := visiting.known other
    simp only [map_cons, map_nil, mem_cons, not_mem_nil] at before ⊢
    tauto
  inside := forall_mem_cons.mpr ⟨member, visiting.inside⟩
  left := by
    intro frame only next leaves
    obtain rfl := mem_singleton.mp only
    exact .inr leaves
  ahead := by
    intro frame only next leaves
    obtain rfl := mem_singleton.mp only
    exact leaves

omit [DecidableEq α] in
theorem Visiting.close {node : α} (visiting : Visiting successors nodes visited finished ((node, []) :: pending)) :
    Visiting successors nodes visited (node :: finished) pending where
  searched := by
    apply visiting.searched.finish
    intro next leaves
    rcases visiting.left _ mem_cons_self next leaves with known | none
    · exact (visiting.known next).mp known
    · exact absurd none not_mem_nil
  known := by
    intro other
    rw [visiting.known other, map_cons, mem_cons, mem_cons]
    tauto
  inside := visiting.inside
  left := fun frame member => visiting.left frame (mem_cons_of_mem _ member)
  ahead := fun frame member => visiting.ahead frame (mem_cons_of_mem _ member)

omit [DecidableEq α] in
theorem Visiting.skip {node target : α} {targets : List α}
    (visiting : Visiting successors nodes visited finished ((node, target :: targets) :: pending)) (known : target ∈ visited) :
    Visiting successors nodes visited finished ((node, targets) :: pending) where
  searched := visiting.searched
  known := visiting.known
  inside := visiting.inside
  left := by
    intro frame member next leaves
    rcases mem_cons.mp member with same | below
    · subst same
      rcases visiting.left _ mem_cons_self next leaves with old | ahead
      · exact .inl old
      · rcases mem_cons.mp ahead with here | later
        · exact .inl (here ▸ known)
        · exact .inr later
    · exact visiting.left frame (mem_cons_of_mem _ below) next leaves
  ahead := by
    intro frame member next leaves
    rcases mem_cons.mp member with same | below
    · subst same
      exact visiting.ahead _ mem_cons_self next (mem_cons_of_mem target leaves)
    · exact visiting.ahead frame (mem_cons_of_mem _ below) next leaves

omit [DecidableEq α] in
theorem Visiting.descend {node target : α} {targets : List α}
    (visiting : Visiting successors nodes visited finished ((node, target :: targets) :: pending)) (member : target ∈ nodes)
    (new : target ∉ visited) :
    Visiting successors nodes (target :: visited) finished ((target, successors target) :: (node, targets) :: pending) where
  searched := by
    have fresh : target ∉ finished ++ (node :: pending.map Prod.fst) := by
      intro known
      exact new ((visiting.known target).mpr (mem_append.mp known))
    apply visiting.searched.open fresh
    intro parent first
    cases first
    exact visiting.ahead _ mem_cons_self target mem_cons_self
  known := by
    intro other
    have before := visiting.known other
    simp only [map_cons, mem_cons] at before ⊢
    tauto
  inside := forall_mem_cons.mpr ⟨member, visiting.inside⟩
  left := by
    intro frame within next leaves
    rcases mem_cons.mp within with same | others
    · subst same
      exact .inr leaves
    · rcases mem_cons.mp others with same | below
      · subst same
        rcases visiting.left _ mem_cons_self next leaves with old | ahead
        · exact .inl (mem_cons_of_mem target old)
        · rcases mem_cons.mp ahead with here | later
          · exact .inl (here ▸ mem_cons_self)
          · exact .inr later
      · exact (visiting.left frame (mem_cons_of_mem _ below) next leaves).imp_left (mem_cons_of_mem target)
  ahead := by
    intro frame within next leaves
    rcases mem_cons.mp within with same | others
    · subst same
      exact leaves
    · rcases mem_cons.mp others with same | below
      · subst same
        exact visiting.ahead _ mem_cons_self next (mem_cons_of_mem target leaves)
      · exact visiting.ahead frame (mem_cons_of_mem _ below) next leaves

theorem visit_done (distinct : nodes.Nodup) (whole : ∀ node ∈ nodes, ∀ next ∈ successors node, next ∈ nodes) {turns : Nat}
    (visiting : Visiting successors nodes visited finished pending) (enough : leftOver successors nodes visited pending ≤ turns) :
    Visiting successors nodes (visit successors turns visited finished pending).1 (visit successors turns visited finished pending).2 [] ∧
      visited ⊆ (visit successors turns visited finished pending).1 := by
  induction turns, visited, finished, pending using visit.induct successors with
  | case1 visited finished pending =>
    cases pending with
    | nil => exact ⟨visiting, List.Subset.refl _⟩
    | cons frame rest =>
      unfold leftOver at enough
      rw [map_cons, sum_cons] at enough
      omega
  | case2 turns visited finished => exact ⟨visiting, List.Subset.refl _⟩
  | case3 turns visited finished node pending ih =>
    apply ih visiting.close
    unfold leftOver at enough ⊢
    rw [map_cons, sum_cons] at enough
    omega
  | case4 turns visited finished node target targets pending old ih =>
    rw [visit, if_pos old]
    apply ih (visiting.skip old)
    unfold leftOver at enough ⊢
    rw [map_cons, sum_cons] at enough ⊢
    simp only [length_cons] at enough ⊢
    omega
  | case5 turns visited finished node target targets pending new ih =>
    rw [visit, if_neg new]
    have leads : target ∈ successors node := visiting.ahead _ mem_cons_self target mem_cons_self
    have opened : node ∈ visited := (visiting.known node).mpr (.inr mem_cons_self)
    have member : target ∈ nodes := whole node (visiting.inside node opened) target leads
    have later := ih (visiting.descend member new) ?_
    · exact ⟨later.1, fun other old => later.2 (mem_cons_of_mem target old)⟩
    · rw [leftOver_open distinct member new]
      unfold leftOver at enough ⊢
      rw [map_cons, sum_cons] at enough ⊢
      simp only [length_cons] at enough ⊢
      omega

theorem finishOrder_done (distinct : nodes.Nodup) (whole : ∀ node ∈ nodes, ∀ next ∈ successors node, next ∈ nodes) {turns : Nat}
    (enough : (nodes.map (weight successors)).sum ≤ turns) {starts : List α} (within : ∀ start ∈ starts, start ∈ nodes)
    (visiting : Visiting successors nodes visited finished []) :
    Visiting successors nodes (finishOrder successors turns starts (visited, finished)).1
        (finishOrder successors turns starts (visited, finished)).2 [] ∧
      (∀ node ∈ visited, node ∈ (finishOrder successors turns starts (visited, finished)).1) ∧
      ∀ start ∈ starts, start ∈ (finishOrder successors turns starts (visited, finished)).1 := by
  induction starts generalizing visited finished with
  | nil => exact ⟨visiting, fun _ member => member, by simp⟩
  | cons start rest ih =>
    obtain ⟨here, later⟩ := forall_mem_cons.mp within
    rw [finishOrder]
    split
    · next old =>
      obtain ⟨done, kept, started⟩ := ih later visiting
      exact ⟨done, kept, forall_mem_cons.mpr ⟨kept start old, started⟩⟩
    · next new =>
      have fits : leftOver successors nodes (start :: visited) [(start, successors start)] ≤ turns := by
        rw [leftOver_open distinct here new]
        unfold leftOver
        have less : ((nodes.filter fun node => node ∉ visited).map (weight successors)).sum ≤ (nodes.map (weight successors)).sum :=
          (filter_sublist.map _).sum_le_sum fun _ _ => Nat.zero_le _
        simp only [map_nil, sum_nil]
        omega
      obtain ⟨after, grown⟩ := visit_done distinct whole (visiting.begin here new) fits
      obtain ⟨done, kept, started⟩ := ih later after
      refine ⟨done, ?_, forall_mem_cons.mpr ⟨?_, started⟩⟩
      · intro node member
        exact kept node (grown (mem_cons_of_mem start member))
      · exact kept start (grown mem_cons_self)

end

/-! The second search. -/

structure Gathering (edge : α → α → Prop) (nodes taken : List α) (start : α) (assigned component pending : List α) : Prop where
  known : ∀ node, node ∈ assigned ↔ node ∈ taken ∨ node ∈ component ∨ node ∈ pending
  distinct : (component ++ pending).Nodup
  free : ∀ node ∈ component ++ pending, node ∉ taken
  inside : ∀ node ∈ component ++ pending, node ∈ nodes
  leads : ∀ node ∈ component ++ pending, ReflTransGen edge node start
  closed : ∀ node ∈ component, ∀ source, edge source node → source ∈ assigned
  first : start ∈ component ++ pending

section
variable {edge : α → α → Prop} {predecessors : α → List α} {nodes taken assigned component pending : List α} {start node : α}

theorem Gathering.begin (free : start ∉ taken) (inside : start ∈ nodes) :
    Gathering edge nodes taken start (start :: taken) [] [start] where
  known := by
    intro node
    simp [or_comm]
  distinct := by simp
  free := by simpa using free
  inside := by simpa using inside
  leads := by
    intro node only
    obtain rfl := mem_singleton.mp only
    exact .refl
  closed := by simp
  first := by simp

variable [DecidableEq α]

theorem Gathering.take (gathering : Gathering edge nodes taken start assigned component (node :: pending))
    (exact_ : ∀ source, source ∈ predecessors node ↔ edge source node) (apart : (predecessors node).Nodup)
    (whole : ∀ source, edge source node → source ∈ nodes) :
    Gathering edge nodes taken start ((predecessors node).filter (fun source => source ∉ assigned) ++ assigned) (node :: component)
      ((predecessors node).filter (fun source => source ∉ assigned) ++ pending) := by
  have fresh : ∀ source, source ∈ (predecessors node).filter (fun source => source ∉ assigned) ↔
      edge source node ∧ source ∉ assigned := by
    intro source
    rw [mem_filter, exact_, decide_eq_true_eq]
  have parts : ∀ other, other ∈ node :: component ++ ((predecessors node).filter (fun source => source ∉ assigned) ++ pending) ↔
      other ∈ component ++ node :: pending ∨ edge other node ∧ other ∉ assigned := by
    intro other
    rw [mem_append, mem_append, mem_append, mem_cons, mem_cons, fresh]
    tauto
  have here : node ∈ component ++ node :: pending := by simp
  constructor
  · intro other
    rw [mem_append, mem_append, fresh, gathering.known other, mem_cons, mem_cons]
    tauto
  · have new : ∀ other ∈ (predecessors node).filter (fun source => source ∉ assigned), other ∉ component ++ node :: pending := by
      intro other member old
      refine ((fresh other).mp member).2 ((gathering.known other).mpr ?_)
      exact .inr (mem_append.mp old)
    have before := nodup_middle.mp gathering.distinct
    have both : ((predecessors node).filter (fun source => source ∉ assigned) ++ (component ++ node :: pending)).Nodup := by
      refine nodup_append.mpr ⟨apart.filter _, gathering.distinct, ?_⟩
      intro one first two second same
      exact new one first (same ▸ second)
    refine (List.Perm.nodup_iff ?_).mpr both
    grind
  · intro other member
    rcases (parts other).mp member with old | ⟨_, unassigned⟩
    · exact gathering.free other old
    · exact fun inside => unassigned ((gathering.known other).mpr (.inl inside))
  · intro other member
    rcases (parts other).mp member with old | ⟨leads, _⟩
    · exact gathering.inside other old
    · exact whole other leads
  · intro other member
    rcases (parts other).mp member with old | ⟨leads, _⟩
    · exact gathering.leads other old
    · exact ReflTransGen.head leads (gathering.leads node here)
  · intro other member source leads
    rw [mem_append, fresh]
    by_cases old : source ∈ assigned
    · exact .inr old
    · rcases mem_cons.mp member with same | before
      · exact .inl ⟨same ▸ leads, old⟩
      · exact .inr (gathering.closed other before source leads)
  · exact (parts start).mpr (.inl gathering.first)

theorem filter_unassigned {fresh : List α} (distinct : nodes.Nodup) (apart : fresh.Nodup)
    (new : ∀ node ∈ fresh, node ∈ nodes ∧ node ∉ assigned) :
    (nodes.filter fun node => node ∉ assigned).length = (nodes.filter fun node => node ∉ fresh ++ assigned).length + fresh.length := by
  have second : (fresh ++ nodes.filter fun node => node ∉ fresh ++ assigned).Nodup := by
    refine nodup_append.mpr ⟨apart, distinct.filter _, ?_⟩
    intro one first two member same
    subst same
    have other := (mem_filter.mp member).2
    rw [decide_eq_true_eq] at other
    exact other (mem_append_left assigned first)
  have same : (nodes.filter fun node => node ∉ assigned).Perm (fresh ++ nodes.filter fun node => node ∉ fresh ++ assigned) := by
    refine (perm_ext_iff_of_nodup (distinct.filter _) second).mpr fun node => ?_
    rw [mem_append, mem_filter, mem_filter, decide_eq_true_eq, decide_eq_true_eq, mem_append]
    by_cases member : node ∈ fresh
    · simp [member, new node member]
    · simp [member]
  rw [same.length_eq, length_append, Nat.add_comm]

theorem gather_done (exact_ : ∀ node source, source ∈ predecessors node ↔ edge source node)
    (apart : ∀ node, (predecessors node).Nodup) (distinct : nodes.Nodup) (whole : ∀ node source, edge source node → source ∈ nodes)
    {turns : Nat} (gathering : Gathering edge nodes taken start assigned component pending)
    (enough : (nodes.filter fun node => node ∉ assigned).length + pending.length ≤ turns) :
    Gathering edge nodes taken start (gather predecessors turns assigned component pending).1
      (gather predecessors turns assigned component pending).2 [] := by
  induction turns, assigned, component, pending using gather.induct predecessors with
  | case1 assigned component pending =>
    have none : pending = [] := length_eq_zero_iff.mp (by omega)
    subst none
    exact gathering
  | case2 turns assigned component => exact gathering
  | case3 turns assigned component node pending fresh ih =>
    apply ih (gathering.take (exact_ node) (apart node) (whole node))
    have new : ∀ source ∈ fresh, source ∈ nodes ∧ source ∉ assigned := by
      intro source member
      have parts := mem_filter.mp member
      rw [decide_eq_true_eq] at parts
      exact ⟨whole node source ((exact_ node source).mp parts.1), parts.2⟩
    have count : (nodes.filter fun node => node ∉ assigned).length =
        (nodes.filter fun node => node ∉ fresh ++ assigned).length + fresh.length :=
      filter_unassigned distinct ((apart node).filter _) new
    rw [length_append]
    rw [length_cons] at enough
    omega

omit [DecidableEq α] in
theorem Gathering.members (gathering : Gathering edge nodes taken start assigned component []) (backward : Backward edge taken) :
    node ∈ component ↔ node ∉ taken ∧ ReflTransGen edge node start := by
  have here : ∀ other, other ∈ component → other ∈ component ++ [] := fun other member => mem_append_left [] member
  constructor
  · intro member
    exact ⟨gathering.free node (here node member), gathering.leads node (here node member)⟩
  · intro ⟨free, leads⟩
    have found : node ∈ taken ∨ node ∈ component := by
      induction leads using ReflTransGen.head_induction_on with
      | refl => exact .inr (by simpa using gathering.first)
      | @head one two first rest ih =>
        by_cases old : two ∈ taken
        · exact .inl (backward one two first old)
        · rcases ih old with before | member
          · exact absurd before old
          · have found := (gathering.known one).mp (gathering.closed two member one first)
            simpa using found
    exact found.resolve_left free

omit [DecidableEq α] in
theorem Gathering.backward (gathering : Gathering edge nodes taken start assigned component []) (backward : Backward edge taken) :
    Backward edge assigned := by
  intro one two leads member
  rcases (gathering.known two).mp member with old | here | none
  · exact (gathering.known one).mpr (.inl (backward one two leads old))
  · exact gathering.closed two here one leads
  · exact absurd none not_mem_nil

end

/-! Components. -/

def Cyclic (edge : α → α → Prop) (nodes : Set α) : Prop := nodes.Nontrivial ∨ ∃ node ∈ nodes, edge node node

section
variable {successors predecessors : α → List α} {nodes assigned component : List α}

theorem nontrivial_iff (distinct : component.Nodup) : 1 < component.length ↔ {node | node ∈ component}.Nontrivial := by
  cases component with
  | nil => simp
  | cons one rest =>
    cases rest with
    | nil => simp
    | cons two rest =>
      refine ⟨fun _ => ⟨one, by simp, two, by simp, ?_⟩, fun _ => by simp⟩
      intro same
      exact (nodup_cons.mp distinct).1 (same ▸ mem_cons_self)

variable [DecidableEq α]

theorem isCyclic_iff (distinct : component.Nodup) :
    isCyclic successors component = true ↔ Cyclic (fun one two => two ∈ successors one) {node | node ∈ component} := by
  unfold isCyclic Cyclic
  rw [Bool.or_eq_true, decide_eq_true_eq, nontrivial_iff distinct, any_eq_true]
  simp only [contains_iff_mem, Set.mem_ofPred_eq]

omit [DecidableEq α] in
theorem length_le_turns : nodes.length ≤ (nodes.map (weight successors)).sum := by
  induction nodes with
  | nil => simp
  | cons node rest ih =>
    rw [map_cons, sum_cons, length_cons]
    unfold weight at ih ⊢
    omega

/-- What the second search adds to the components: those of the nodes that are left, one after the other. -/
structure Assigned (edge : α → α → Prop) (assigned left : List α) (components : List (List α)) : Prop where
  distinct : ∀ component ∈ components, component.Nodup
  whole : ∀ component ∈ components, ∃ start ∈ left, ∀ node, node ∈ component ↔ Mutual edge node start
  cyclic : ∀ component ∈ components, Cyclic edge {node | node ∈ component}
  free : ∀ component ∈ components, ∀ node ∈ component, node ∉ assigned
  apart : components.Pairwise List.Disjoint
  found : ∀ node ∈ left, node ∉ assigned → Cyclic edge {other | Mutual edge other node} → ∃ component ∈ components, node ∈ component

theorem assign_done {turns : Nat} {done left : List α}
    (exact_ : ∀ node source, source ∈ predecessors node ↔ node ∈ successors source) (apart : ∀ node, (predecessors node).Nodup)
    (distinct : nodes.Nodup) (whole : ∀ node source, node ∈ successors source → source ∈ nodes) (enough : nodes.length ≤ turns)
    (ordered : Ordered (fun one two => two ∈ successors one) (done ++ left)) (within : ∀ node, node ∈ nodes ↔ node ∈ done ++ left)
    (passed : ∀ node ∈ done, node ∈ assigned) (backward : Backward (fun one two => two ∈ successors one) assigned) :
    Assigned (fun one two => two ∈ successors one) assigned left (assign successors predecessors turns left assigned) := by
  induction left generalizing done assigned with
  | nil => exact ⟨by simp [assign], by simp [assign], by simp [assign], by simp [assign], List.Pairwise.nil, by simp⟩
  | cons start rest ih =>
    have shifted : done ++ start :: rest = (done ++ [start]) ++ rest := by simp
    rw [assign]
    split
    · next old =>
      have later := ih (shifted ▸ ordered) (shifted ▸ within) (by
        intro node member
        rcases mem_append.mp member with before | here
        · exact passed node before
        · exact mem_singleton.mp here ▸ old) backward
      refine ⟨later.distinct, ?_, later.cyclic, later.free, later.apart, ?_⟩
      · intro component member
        obtain ⟨node, inside, members⟩ := later.whole component member
        exact ⟨node, mem_cons_of_mem start inside, members⟩
      · intro node member free
        rcases mem_cons.mp member with here | after
        · exact absurd (here ▸ old) free
        · exact later.found node after free
    · next free =>
      have inside : start ∈ nodes := (within start).mpr (by simp)
      have fits : (nodes.filter fun node => node ∉ start :: assigned).length + [start].length ≤ turns := by
        have count : (nodes.filter fun node => node ∉ assigned).length =
            (nodes.filter fun node => node ∉ [start] ++ assigned).length + [start].length :=
          filter_unassigned distinct (nodup_singleton start) fun node only => mem_singleton.mp only ▸ ⟨inside, free⟩
        have less : (nodes.filter fun node => node ∉ assigned).length ≤ nodes.length := length_filter_le _ _
        simp only [singleton_append] at count
        omega
      have gathered := gather_done exact_ apart distinct whole (Gathering.begin free inside) fits
      have members : ∀ node, node ∈ (gather predecessors turns (start :: assigned) [] [start]).2 ↔
          Mutual (fun one two => two ∈ successors one) node start := by
        intro node
        rw [gathered.members backward]
        constructor
        · intro ⟨untaken, leads⟩
          exact ordered.mutual (fun one two first => (within one).mp (whole two one first)) passed backward untaken leads
        · intro mutually
          exact ⟨fun taken => free (backward.path mutually.2 taken), mutually.1⟩
      have unique : (gather predecessors turns (start :: assigned) [] [start]).2.Nodup := by
        simpa using gathered.distinct
      have later := ih (shifted ▸ ordered) (shifted ▸ within) (by
        intro node member
        rw [gathered.known node]
        rcases mem_append.mp member with before | here
        · exact .inl (passed node before)
        · rw [mem_singleton.mp here]
          exact .inr (.inl ((members start).mpr ⟨.refl, .refl⟩))) (gathered.backward backward)
      have chosen : ∀ other, other ∈ (if isCyclic successors (gather predecessors turns (start :: assigned) [] [start]).2 then
          [(gather predecessors turns (start :: assigned) [] [start]).2] else []) ↔
          Cyclic (fun one two => two ∈ successors one) {node | node ∈ (gather predecessors turns (start :: assigned) [] [start]).2} ∧
            other = (gather predecessors turns (start :: assigned) [] [start]).2 := by
        intro other
        rw [← isCyclic_iff unique]
        split <;> simp [*]
      have taken : ∀ node, node ∈ (gather predecessors turns (start :: assigned) [] [start]).1 ↔
          node ∈ assigned ∨ node ∈ (gather predecessors turns (start :: assigned) [] [start]).2 := by
        intro node
        simpa using gathered.known node
      constructor
      · intro component member
        rcases mem_append.mp member with here | after
        · exact ((chosen component).mp here).2 ▸ unique
        · exact later.distinct component after
      · intro component member
        rcases mem_append.mp member with here | after
        · exact ⟨start, mem_cons_self, fun node => ((chosen component).mp here).2 ▸ members node⟩
        · obtain ⟨other, inside, others⟩ := later.whole component after
          exact ⟨other, mem_cons_of_mem start inside, others⟩
      · intro component member
        rcases mem_append.mp member with here | after
        · obtain ⟨cyclic, rfl⟩ := (chosen component).mp here
          exact cyclic
        · exact later.cyclic component after
      · intro component member node inside old
        rcases mem_append.mp member with here | after
        · obtain ⟨_, rfl⟩ := (chosen component).mp here
          exact ((gathered.members backward).mp inside).1 old
        · exact later.free component after node inside ((taken node).mpr (.inl old))
      · refine pairwise_append.mpr ⟨?_, later.apart, ?_⟩
        · split <;> simp
        · intro one first two second node inside also
          obtain ⟨_, rfl⟩ := (chosen one).mp first
          exact later.free two second node also ((taken node).mpr (.inr inside))
      · intro node member untaken cyclic
        by_cases here : node ∈ (gather predecessors turns (start :: assigned) [] [start]).2
        · refine ⟨_, mem_append_left _ ((chosen _).mpr ⟨?_, rfl⟩), here⟩
          have same : {node | node ∈ (gather predecessors turns (start :: assigned) [] [start]).2} =
              {other | Mutual (fun one two => two ∈ successors one) other node} := by
            ext other
            have mutually := (members node).mp here
            exact ⟨fun inside => ((members other).mp inside).trans mutually.symm,
              fun inside => (members other).mpr (inside.trans mutually)⟩
          rw [same]
          exact cyclic
        · have left : node ∈ rest := by
            rcases mem_cons.mp member with first | after
            · exact absurd ((members node).mpr (first ▸ ⟨.refl, .refl⟩)) here
            · exact after
          have free' := (not_congr (taken node)).mpr (not_or.mpr ⟨untaken, here⟩)
          obtain ⟨component, inside, holds⟩ := later.found node left free' cyclic
          exact ⟨component, mem_append_right _ inside, holds⟩

end
end

/-! The components of a mapping. -/

section
variable {α : Type} [LinearOrder α]

namespace AdjacencyMap
variable {graph : AdjacencyMap α} {node target source : α}

theorem edge_iff : graph.Edge source target ↔ ∃ targets, (source, targets) ∈ graph.entries ∧ target ∈ targets := by
  unfold Edge targets
  cases found : graph.entries.get source with
  | none =>
    have absent := Directory.get_eq_none.mp found
    refine ⟨fun inside => absurd inside (by simp), ?_⟩
    intro ⟨targets, member, _⟩
    exact absurd (mem_map.mpr ⟨_, member, rfl⟩) absent
  | some targets =>
    refine ⟨fun inside => ⟨targets, Directory.mem_of_get found, inside⟩, ?_⟩
    intro ⟨others, member, inside⟩
    have same := (Directory.get_of_mem graph.distinct member).symm.trans found
    cases same
    exact inside

theorem mem_sources : source ∈ graph.sources node ↔ graph.Edge source node := by
  unfold sources
  rw [edge_iff]
  simp [mem_map, mem_filter]

theorem edge_nodes (edge : graph.Edge source target) : source ∈ graph.nodes ∧ target ∈ graph.nodes := by
  obtain ⟨targets, member, inside⟩ := edge_iff.mp edge
  exact ⟨mem_append_left _ (mem_map.mpr ⟨_, member, rfl⟩),
    mem_append_right _ (mem_flatMap.mpr ⟨_, member, inside⟩)⟩

def IsComponent (graph : AdjacencyMap α) (nodes : Set α) : Prop :=
  ∃ node ∈ graph.nodes, nodes = {other | Mutual graph.Edge other node}

end AdjacencyMap

omit [LinearOrder α] in
theorem Assigned.perm {edge : α → α → Prop} {left others : List α} {components sorted : List (List α)}
    (assigned : Assigned edge [] left components) (same : ∀ node, node ∈ left ↔ node ∈ others) (permuted : sorted.Perm components) :
    Assigned edge [] others sorted where
  distinct := fun component member => assigned.distinct component (permuted.mem_iff.mp member)
  whole := by
    intro component member
    obtain ⟨start, inside, members⟩ := assigned.whole component (permuted.mem_iff.mp member)
    exact ⟨start, (same start).mp inside, members⟩
  cyclic := fun component member => assigned.cyclic component (permuted.mem_iff.mp member)
  free := fun component member => assigned.free component (permuted.mem_iff.mp member)
  apart := (permuted.pairwise_iff fun apart => apart.symm).mpr assigned.apart
  found := by
    intro node inside free cyclic
    obtain ⟨component, member, holds⟩ := assigned.found node ((same node).mpr inside) free cyclic
    exact ⟨component, permuted.mem_iff.mpr member, holds⟩

theorem orderedComponents_assigned {nodes : List α} {successors predecessors : α → List α} (distinct : nodes.Nodup)
    (leads : ∀ node source, node ∈ successors source → node ∈ nodes ∧ source ∈ nodes)
    (transposed : ∀ node source, source ∈ predecessors node ↔ node ∈ successors source) (apart : ∀ node, (predecessors node).Nodup) :
    Assigned (fun one two => two ∈ successors one) [] nodes (orderedComponents nodes successors predecessors) := by
  have empty : Visiting successors nodes [] [] [] := ⟨Searched.start, by simp, by simp, by simp, by simp⟩
  obtain ⟨done, _, started⟩ := finishOrder_done distinct (fun source _ node edge => (leads node source edge).1)
    (Nat.le_refl _) (fun _ member => member) empty
  unfold orderedComponents
  dsimp only
  generalize finishOrder successors (nodes.map (weight successors)).sum nodes ([], []) = result at done started
  have known : ∀ node, node ∈ result.2 ↔ node ∈ nodes := by
    intro node
    have visited := done.known node
    simp only [map_nil, not_mem_nil, or_false] at visited
    exact ⟨fun finished => done.inside node (visited.mpr finished), fun inside => visited.mp (started node inside)⟩
  have assigned : Assigned (fun one two => two ∈ successors one) [] result.2
      (assign successors predecessors (nodes.map (weight successors)).sum result.2 []) := by
    apply assign_done transposed apart distinct (fun node source edge => (leads node source edge).2) length_le_turns
    · exact (nil_append result.2).symm ▸ done.searched.ordered
    · exact fun node => (known node).symm
    · exact forall_mem_nil _
    · exact fun _ _ _ member => absurd member not_mem_nil
  exact assigned.perm known (mergeSort_perm _ _)

theorem cyclicComponents_congr {one two : AdjacencyMap α} (same : one.Same two) : cyclicComponents one = cyclicComponents two := by
  have nodes : sortedSet one.nodes = sortedSet two.nodes := sortedSet_congr same.1
  have targets : (fun node => sortedSet (one.targets node)) = fun node => sortedSet (two.targets node) := by
    funext node
    exact sortedSet_congr (same.2 node)
  have sources : (fun node => sortedSet (one.sources node)) = fun node => sortedSet (two.sources node) := by
    funext node
    apply sortedSet_congr
    intro source
    rw [AdjacencyMap.mem_sources, AdjacencyMap.mem_sources]
    exact same.2 source node
  unfold cyclicComponents
  rw [nodes, targets, sources]

theorem cyclicComponents_assigned (graph : AdjacencyMap α) : Assigned graph.Edge [] (sortedSet graph.nodes) (cyclicComponents graph) := by
  have edges : (fun one two => two ∈ sortedSet (graph.targets one)) = graph.Edge := by
    funext one two
    exact propext mem_sortedSet
  have leads : ∀ node source, node ∈ sortedSet (graph.targets source) → node ∈ sortedSet graph.nodes ∧ source ∈ sortedSet graph.nodes := by
    intro node source edge
    have both := AdjacencyMap.edge_nodes (mem_sortedSet.mp edge)
    exact ⟨mem_sortedSet.mpr both.2, mem_sortedSet.mpr both.1⟩
  have transposed : ∀ node source, source ∈ sortedSet (graph.sources node) ↔ node ∈ sortedSet (graph.targets source) := by
    intro node source
    rw [mem_sortedSet, mem_sortedSet]
    exact AdjacencyMap.mem_sources
  rw [← edges]
  exact orderedComponents_assigned (sortedSet_nodup graph.nodes) leads transposed fun node => sortedSet_nodup _

/-- The components of more than one node and of nodes that lead to themselves, each once, in an order of the graph alone. -/
theorem cyclicComponents_exact (graph : AdjacencyMap α) :
    (∀ nodes : Set α, (∃ component ∈ cyclicComponents graph, {node | node ∈ component} = nodes) ↔
        graph.IsComponent nodes ∧ (nodes.Nontrivial ∨ ∃ node ∈ nodes, graph.Edge node node)) ∧
      (∀ component ∈ cyclicComponents graph, component.Nodup) ∧ (cyclicComponents graph).Pairwise List.Disjoint ∧
      ∀ other, graph.Same other → cyclicComponents graph = cyclicComponents other := by
  have assigned := cyclicComponents_assigned graph
  refine ⟨?_, assigned.distinct, assigned.apart, fun other same => cyclicComponents_congr same⟩
  intro nodes
  constructor
  · intro ⟨component, member, same⟩
    obtain ⟨start, inside, members⟩ := assigned.whole component member
    subst same
    refine ⟨⟨start, mem_sortedSet.mp inside, ?_⟩, assigned.cyclic component member⟩
    ext node
    exact members node
  · intro ⟨⟨node, inside, same⟩, cyclic⟩
    subst same
    obtain ⟨component, member, holds⟩ := assigned.found node (mem_sortedSet.mpr inside) List.not_mem_nil cyclic
    obtain ⟨start, _, members⟩ := assigned.whole component member
    refine ⟨component, member, ?_⟩
    ext other
    have mutually := (members node).mp holds
    exact ⟨fun inside => ((members other).mp inside).trans mutually.symm, fun inside => (members other).mpr (inside.trans mutually)⟩

end
end Workctx.Validation
