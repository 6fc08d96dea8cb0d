import Workctx.Projection.Related

/-! What the traversal returns: the references within a depth, with their distances, whatever order the edges are read in. -/

namespace Workctx.Projection
open Workctx.References Workctx.Retrieval Workctx.Search List
open Workctx.Domain (bind_ok)

variable {δ : Type} {tables : Tables} {reader other : ProjectionReader δ} {edges : List EdgeRecord} {direction : TraversalDirection}
  {relations : Relations} {start : Text}

/-- A result whose nodes are the references within a depth, each once and with its distance, and whose edges are those at references
nearer than the depth, each once and from where it is met first. -/
structure Shortest (tables : Tables) (reader : ProjectionReader δ) (edges : List EdgeRecord) (direction : TraversalDirection)
    (relations : Relations) (start : Text) (depth : Nat) (nodes : List (RelatedNode δ)) (traversed : List TraversedEdge) : Prop where
  reached : ∀ node, node ∈ nodes ↔ 1 ≤ node.depth ∧ node.depth ≤ depth ∧
    ∃ v, Near tables reader edges direction relations start node.depth v ∧ resolve tables reader (.text v) = .ok node.resolution
  unique : (nodes.map fun node => node.resolution.reference).Nodup
  sound : ∀ edge ∈ traversed, ∃ d < depth, ∃ u, Near tables reader edges direction relations start d u ∧
    ∃ candidate ∈ incident edges direction relations u, edge = traversedAt (d + 1) candidate
  complete : ∀ d < depth, ∀ u, Near tables reader edges direction relations start d u → ∀ candidate ∈ incident edges direction relations u,
    ∃ edge ∈ traversed, edge.key = edgeKey candidate.edge ∧ edge.depth ≤ d + 1
  once : (traversed.map TraversedEdge.key).Nodup

variable {depth : Nat} {nodes : List (RelatedNode δ)} {traversed : List TraversedEdge}

theorem Explored.shortest {frontier : List Text} {state : Traversal δ}
    (explored : Explored tables reader edges direction relations start depth frontier state) :
    Shortest tables reader edges direction relations start depth state.nodes state.traversedEdges := by
  refine ⟨fun node => ?_, explored.unique, explored.sound, explored.complete, explored.once⟩
  rw [explored.nodes]
  constructor
  · rintro ⟨d, less, v, near, found⟩
    obtain ⟨at_, resolved⟩ := nodeAt_some.mp found
    rw [at_]
    exact ⟨Nat.succ_pos d, less, v, near, resolved⟩
  · rintro ⟨positive, within, v, near, resolved⟩
    refine ⟨node.depth - 1, by omega, v, ?_, nodeAt_some.mpr ⟨by omega, resolved⟩⟩
    rw [Nat.sub_add_cancel positive]
    exact near

theorem shortest_nil (none : ∀ d < depth, ∀ v, ¬LeadsFrom tables reader edges direction relations start d v)
    (bare : ∀ d < depth, ∀ u, Near tables reader edges direction relations start d u → incident edges direction relations u = []) :
    Shortest tables reader edges direction relations start depth [] [] := by
  refine ⟨fun node => ⟨fun member => absurd member not_mem_nil, ?_⟩, nodup_nil, forall_mem_nil _, ?_,
    nodup_nil⟩
  · rintro ⟨positive, within, v, near, _⟩
    obtain ⟨n, at_⟩ : ∃ n, node.depth = n + 1 := ⟨node.depth - 1, by omega⟩
    rw [at_] at near within
    obtain ⟨u, level, leads, _⟩ := AtDistance.before near
    exact absurd ⟨u, level, leads⟩ (none n within v)
  · intro d less u near candidate found
    rw [bare d less u near] at found
    cases found

theorem incident_none (u : Text) : incident edges direction (some []) u = [] := by
  unfold incident Relations.allow
  simp

theorem explored_start (direction : TraversalDirection) (relations : Relations) (yields : Yields tables edges reader) (begins : Parses tables reader start) :
    Explored tables reader edges direction relations start 0 [start] (⟨[start], [], [], [], []⟩ : Traversal δ) := by
  constructor
  · simp
  · intro v member
    rw [mem_singleton.mp member]
    intro error refused
    obtain ⟨resolution, done⟩ := resolves_iff.mp (resolves_of_parses yields begins)
    rw [done] at refused
    cases refused
  · intro v
    rw [mem_singleton]
    exact atDistance_zero.symm
  · simp
  · exact nodup_nil
  · intro key
    simp
  · exact nodup_nil
  · simp
  · exact fun d less => absurd less (Nat.not_lt_zero d)

section
variable {reference : ResolvableReference} {focal : ResolutionResult δ} {depth : Nat}

theorem related_cases (resolved : resolve tables reader reference = .ok focal) (printed : focal.reference = .ok start) :
    related tables reader reference direction depth relations =
      if depth = 0 ∨ relations = some [] then .ok ⟨focal, depth, direction, relations, [], []⟩
      else (levels tables reader direction relations depth 0 [start] ⟨[start], [], [], [], []⟩).map fun traversal =>
        ⟨focal, depth, direction, relations, traversal.nodes, traversal.traversedEdges⟩ := by
  unfold related
  rw [resolved]
  dsimp only [bind, Except.bind]
  split
  · rfl
  · rw [printed]
    rfl

/-- The traversal returns where it meets no other context, and what it returns is shortest. -/
theorem related_spec (direction : TraversalDirection) (depth : Nat) (relations : Relations) (lawful : tables.KeepsLower) (yields : Yields tables edges reader)
    (resolved : resolve tables reader reference = .ok focal) (printed : focal.reference = .ok start) :
    ((∃ result, related tables reader reference direction depth relations = .ok result) ↔
      ∀ d < depth, ∀ v, LeadsFrom tables reader edges direction relations start d v → ¬Foreign tables reader v) ∧
    ∀ result, related tables reader reference direction depth relations = .ok result → result.focal = focal ∧
      Shortest tables reader edges direction relations start depth result.nodes result.edges := by
  have begins : Parses tables reader start := ⟨focal.descriptor, resolve_parses lawful resolved printed, (resolve_ok resolved).2.1⟩
  rw [related_cases resolved printed]
  split
  · next still =>
    have none : ∀ d < depth, ∀ v, ¬LeadsFrom tables reader edges direction relations start d v := by
      rintro d less v ⟨u, _, candidate, found, _⟩
      rcases still with rfl | rfl
      · exact absurd less (Nat.not_lt_zero d)
      · rw [incident_none] at found
        cases found
    refine ⟨⟨fun _ d less v leads => absurd leads (none d less v), fun _ => ⟨_, rfl⟩⟩, ?_⟩
    intro result same
    cases same
    refine ⟨rfl, shortest_nil none fun d less u near => ?_⟩
    by_contra filled
    obtain ⟨candidate, found⟩ := exists_mem_of_ne_nil _ filled
    exact none d less _ ⟨u, near, candidate, found, rfl⟩
  · obtain ⟨returns, explored⟩ := levels_explored yields begins depth (explored_start direction relations yields begins)
    rw [Nat.zero_add] at returns explored
    constructor
    · simp only [passable_iff yields, Nat.zero_le, forall_const] at returns
      rw [← returns]
      constructor
      · rintro ⟨result, done⟩
        cases ended : levels tables reader direction relations depth 0 [start] ⟨[start], [], [], [], []⟩ with
        | error error =>
          rw [ended] at done
          cases done
        | ok after => exact ⟨after, rfl⟩
      · rintro ⟨after, done⟩
        rw [done]
        exact ⟨_, rfl⟩
    · intro result done
      cases ended : levels tables reader direction relations depth 0 [start] ⟨[start], [], [], [], []⟩ with
      | error error =>
        rw [ended] at done
        cases done
      | ok after =>
        rw [ended] at done
        cases done
        obtain ⟨last, all⟩ := explored after ended
        exact ⟨rfl, all.shortest⟩

end

/-! The order of the edges. -/

structure SameDocuments (reader other : ProjectionReader δ) : Prop where
  context : other.contextId = reader.contextId
  documents : other.getDocumentByUri = reader.getDocumentByUri

section
variable (same : SameDocuments reader other)
include same

theorem SameDocuments.resolve (reference : ResolvableReference) :
    resolve tables other reference = resolve tables reader reference := by
  unfold Projection.resolve
  rw [same.context, same.documents]

theorem SameDocuments.resolves : resolves tables other = resolves tables reader := by
  funext text
  unfold Projection.resolves
  rw [same.resolve]

theorem SameDocuments.nodeAt (depth : Nat) : nodeAt tables other depth = nodeAt tables reader depth := by
  funext text
  unfold Projection.nodeAt
  rw [same.resolve]

theorem SameDocuments.visit (depth : Nat) : visit tables other depth = visit tables reader depth := by
  funext state candidate
  unfold Projection.visit
  rw [same.resolve]

theorem SameDocuments.near :
    Near tables other edges direction relations start = Near tables reader edges direction relations start := by
  unfold Near Next
  rw [same.resolves]

theorem SameDocuments.parses {text : Text} (parses : Parses tables reader text) : Parses tables other text := by
  obtain ⟨reference, read, own⟩ := parses
  refine ⟨reference, read, ?_⟩
  cases reference with
  | workctx uri => exact Eq.trans own same.context.symm
  | artifact artifact => exact own
  | repo repo => exact own
  | external value => exact own

end

theorem codes_injective : Function.Injective codes := by
  unfold codes
  rw [map_injective_iff]
  intro one two same
  cases one with
  | scalar c =>
    cases two with
    | scalar d => exact congrArg CodePoint.scalar (Char.toNat_inj.mp same)
    | surrogate unit =>
      have apart : c.toNat < 0xD800 ∨ 0xDFFF < c.toNat := c.valid.imp_right And.left
      have := unit.isLt
      dsimp only at same
      omega
  | surrogate unit =>
    cases two with
    | scalar c =>
      have apart : c.toNat < 0xD800 ∨ 0xDFFF < c.toNat := c.valid.imp_right And.left
      have := unit.isLt
      dsimp only at same
      omega
    | surrogate other =>
      dsimp only at same
      exact congrArg CodePoint.surrogate (Fin.ext (by omega))

theorem candidateKey_neighbor {one two : Candidate} (same : candidateKey one = candidateKey two) : one.neighbor = two.neighbor := by
  unfold candidateKey at same
  simp only [toLex_inj, Prod.mk.injEq] at same
  exact codes_injective same.2.2.2.2.2

theorem directionOrder_injective : Function.Injective directionOrder := by
  intro one two same
  cases one <;> cases two <;> first | rfl | cases same

/-- Edges that differ in their relation, source, target or ordinal. -/
def Sorted (edges : List EdgeRecord) : Prop := ∀ one ∈ edges, ∀ two ∈ edges, one.relation.value = two.relation.value →
  one.source = two.source → one.target = two.target → one.ordinal = two.ordinal → one = two

theorem mem_incident {candidate : Candidate} {u : Text} (member : candidate ∈ incident edges direction relations u) : candidate.edge ∈ edges := by
  unfold incident at member
  rcases mem_append.mp member with front | back
  · split at front
    · obtain ⟨edge, kept, rfl⟩ := mem_map.mp front
      exact (mem_filter.mp kept).1
    · cases front
  · split at back
    · obtain ⟨edge, kept, rfl⟩ := mem_map.mp back
      exact (mem_filter.mp kept).1
    · cases back

section
variable (yields : Yields tables edges reader) (also : Yields tables edges other) (same : SameDocuments reader other)
include yields also same

theorem neighbors_same {u : Text} (parses : Parses tables reader u) :
    (foundAt tables other direction relations u).map Candidate.neighbor = (foundAt tables reader direction relations u).map Candidate.neighbor := by
  obtain ⟨reference, read, own⟩ := parses
  obtain ⟨_, read', own'⟩ := same.parses ⟨reference, read, own⟩
  obtain ⟨one, first, permuted⟩ := candidates_ok direction relations yields read own
  obtain ⟨two, second, permuted'⟩ := candidates_ok direction relations also read' own'
  unfold foundAt
  rw [first, second]
  exact map_congr_of_map (fun _ _ => candidateKey_neighbor) (map_sortedBy_congr candidateKey (permuted'.trans permuted.symm))

theorem found_same (sorted : Sorted edges) {u : Text} (parses : Parses tables reader u) :
    candidates tables other u direction relations = candidates tables reader u direction relations := by
  obtain ⟨reference, read, own⟩ := parses
  obtain ⟨_, read', own'⟩ := same.parses ⟨reference, read, own⟩
  obtain ⟨one, first, permuted⟩ := candidates_ok direction relations yields read own
  obtain ⟨two, second, permuted'⟩ := candidates_ok direction relations also read' own'
  rw [first, second, sortedBy_congr (permuted'.trans permuted.symm)]
  intro candidate member another listed equal
  have edge := sorted candidate.edge (mem_incident (permuted'.mem_iff.mp member)) another.edge (mem_incident (permuted'.mem_iff.mp listed))
  have neighbor := candidateKey_neighbor equal
  unfold candidateKey at equal
  simp only [toLex_inj, Prod.mk.injEq] at equal
  obtain ⟨direction, relation, source, target, ordinal, _⟩ := equal
  have edges := edge relation (codes_injective source) (codes_injective target) ordinal
  have directions := directionOrder_injective direction
  cases candidate
  cases another
  dsimp only at edges directions neighbor
  rw [edges, directions, neighbor]

theorem levels_alike (begins : Parses tables reader start) {left depth : Nat} {frontier : List Text} {one two after last : Traversal δ}
    (explored : Explored tables reader edges direction relations start depth frontier one)
    (alike : Explored tables other edges direction relations start depth frontier two)
    (met : two.visitedReferences = one.visitedReferences) (listed : two.nodes = one.nodes)
    (done : levels tables reader direction relations left depth frontier one = .ok after)
    (ended : levels tables other direction relations left depth frontier two = .ok last) : last.nodes = after.nodes := by
  induction left generalizing depth frontier one two with
  | zero =>
    cases done
    cases ended
    exact listed
  | succ left ih =>
    obtain ⟨middle, expanded, rest⟩ := bind_ok.mp done
    obtain ⟨middle', expanded', rest'⟩ := bind_ok.mp ended
    have level := explored.level yields begins expanded
    have level' := alike.level also (same.parses begins) expanded'
    have neighbors : (seenAt tables other direction relations frontier).map Candidate.neighbor =
        (seenAt tables reader direction relations frontier).map Candidate.neighbor := by
      unfold seenAt
      rw [map_flatMap, map_flatMap]
      apply flatMap_congr
      intro u member
      have near := (explored.frontier u).mp (mem_sortedBy.mp member)
      exact neighbors_same yields also same (near.parses begins)
    obtain ⟨_, first⟩ := (expand_level yields begins explored).mp expanded
    obtain ⟨_, second⟩ := (expand_level also (same.parses begins) alike).mp expanded'
    rw [neighbors] at second
    obtain ⟨visited, nodes, waiting⟩ := traverseAll_rest (depth + 1) { one with nextFrontier := [] } (seenAt tables reader direction relations frontier)
    obtain ⟨visited', nodes', waiting'⟩ := traverseAll_rest (depth + 1) { two with nextFrontier := [] } (seenAt tables other direction relations frontier)
    have alikeVisited : middle'.visitedReferences = middle.visitedReferences := by
      rw [first, second]
      dsimp only [meet]
      rw [visited, visited']
      dsimp only
      rw [met]
    have alikeNodes : middle'.nodes = middle.nodes := by
      rw [first, second]
      dsimp only [meet]
      rw [nodes, nodes', met, listed, same.nodeAt]
    have alikeFrontier : middle'.nextFrontier = middle.nextFrontier := by
      rw [first, second]
      dsimp only [meet]
      rw [waiting, waiting', met, same.resolves]
    dsimp only at rest rest'
    rw [alikeFrontier] at level' rest'
    split at rest
    · next empty =>
      rw [if_pos empty] at rest'
      rw [← Except.ok.inj rest, ← Except.ok.inj rest', alikeNodes]
    · next filled =>
      rw [if_neg filled] at rest'
      exact ih level level' alikeVisited alikeNodes rest rest'

/-- Where the candidates come in one order, the loops are the same. -/
theorem levels_same (sorted : Sorted edges) (begins : Parses tables reader start) {left depth : Nat} {frontier : List Text} {state : Traversal δ}
    (explored : Explored tables reader edges direction relations start depth frontier state) :
    levels tables other direction relations left depth frontier state = levels tables reader direction relations left depth frontier state := by
  induction left generalizing depth frontier state with
  | zero => rfl
  | succ left ih =>
    have expanded : ∀ middle : Traversal δ, ∀ frontier : List Text, (∀ u ∈ frontier, Parses tables reader u) →
        frontier.foldlM (expand tables other direction relations (depth + 1)) middle =
          frontier.foldlM (expand tables reader direction relations (depth + 1)) middle := by
      intro middle frontier
      induction frontier generalizing middle with
      | nil => exact fun _ => rfl
      | cons u rest again =>
        intro every
        have one : ∀ middle, expand tables other direction relations (depth + 1) middle u = expand tables reader direction relations (depth + 1) middle u := by
          intro middle
          unfold expand
          rw [found_same yields also same sorted (every u mem_cons_self), same.visit]
        rw [foldlM_cons, foldlM_cons, one]
        congr 1
        funext later
        exact again later fun v member => every v (mem_cons_of_mem u member)
    unfold levels
    rw [expanded _ _ fun u member => ((explored.frontier u).mp (mem_sortedBy.mp member)).parses begins]
    cases done : (sortedBy codes frontier).foldlM (expand tables reader direction relations (depth + 1)) { state with nextFrontier := [] } with
    | error error => rfl
    | ok after =>
      dsimp only [bind, Except.bind]
      rw [ih (explored.level yields begins done)]

end

def depthsAndKeys (traversed : List TraversedEdge) : List (Nat × EdgeKey) := traversed.map fun edge => (edge.depth, edge.key)

theorem Shortest.depth_le
    (shortest : Shortest tables reader edges direction relations start depth nodes traversed) {edge : TraversedEdge} (member : edge ∈ traversed)
    {d : Nat} {u : Text} (near : Near tables reader edges direction relations start d u) {candidate : Candidate}
    (found : candidate ∈ incident edges direction relations u) (same : edgeKey candidate.edge = edge.key) : edge.depth ≤ d + 1 := by
  obtain ⟨e, less, _, _, _, _, whole⟩ := shortest.sound edge member
  by_cases within : d < depth
  · obtain ⟨other, also, key, early⟩ := shortest.complete d within u near candidate found
    have one : other = edge := inj_on_of_nodup_map shortest.once also member (key.trans same)
    rw [← one]
    exact early
  · have at_ : edge.depth = e + 1 := by
      rw [whole]
      rfl
    omega

theorem Shortest.edges_perm {others : List (RelatedNode δ)} {again : List TraversedEdge}
    (one : Shortest tables reader edges direction relations start depth nodes traversed)
    (two : Shortest tables reader edges direction relations start depth others again) :
    (depthsAndKeys again).Perm (depthsAndKeys traversed) := by
  have half : ∀ {nodes others : List (RelatedNode δ)} {traversed again : List TraversedEdge},
      Shortest tables reader edges direction relations start depth nodes traversed →
      Shortest tables reader edges direction relations start depth others again →
      ∀ edge ∈ traversed, ∃ other ∈ again, other.key = edge.key ∧ other.depth ≤ edge.depth := by
    intro nodes others traversed again one two edge member
    obtain ⟨d, less, u, near, candidate, found, rfl⟩ := one.sound edge member
    exact two.complete d less u near candidate found
  have nodup : ∀ {nodes : List (RelatedNode δ)} {traversed : List TraversedEdge},
      Shortest tables reader edges direction relations start depth nodes traversed → (depthsAndKeys traversed).Nodup := by
    intro nodes traversed shortest
    apply List.Nodup.of_map Prod.snd
    unfold depthsAndKeys
    rw [map_map]
    exact shortest.once
  have subset : ∀ {nodes others : List (RelatedNode δ)} {traversed again : List TraversedEdge},
      Shortest tables reader edges direction relations start depth nodes traversed →
      Shortest tables reader edges direction relations start depth others again →
      ∀ pair ∈ depthsAndKeys traversed, pair ∈ depthsAndKeys again := by
    intro nodes others traversed again one two pair member
    obtain ⟨edge, held, rfl⟩ := mem_map.mp member
    obtain ⟨other, also, key, early⟩ := half one two edge held
    obtain ⟨back, stands, key', late⟩ := half two one other also
    have same : back = edge := inj_on_of_nodup_map one.once stands held (key'.trans key)
    rw [same] at late
    refine mem_map.mpr ⟨other, also, ?_⟩
    rw [key, le_antisymm early late]
  exact (perm_ext_iff_of_nodup (nodup two) (nodup one)).mpr fun pair => ⟨subset two one pair, subset one two pair⟩

theorem Shortest.same (same : SameDocuments reader other)
    (shortest : Shortest tables other edges direction relations start depth nodes traversed) :
    Shortest tables reader edges direction relations start depth nodes traversed := by
  obtain ⟨reached, unique, sound, complete, once⟩ := shortest
  simp only [same.near, same.resolve] at reached sound complete
  exact ⟨reached, unique, sound, complete, once⟩

/-- The traversal returns the references within the depth, each once and with its distance, and each edge once from where it is met first.
It refuses where an edge leads to an entity of another context. Neither the nodes nor the depths of the edges depend on the order in
which the edges are read, nor does anything where the edges differ in what they are sorted by. -/
theorem related_shortest (tables : Tables) (lawful : tables.KeepsLower) (edges : List EdgeRecord) (reader : ProjectionReader δ)
    (yields : Yields tables edges reader) (reference : ResolvableReference) (direction : TraversalDirection) (depth : Nat) (relations : Relations) :
    (∀ error, resolve tables reader reference = .error error → related tables reader reference direction depth relations = .error error) ∧
    ∀ focal start, resolve tables reader reference = .ok focal → focal.reference = .ok start →
      ((∃ result, related tables reader reference direction depth relations = .ok result) ↔
        ∀ d < depth, ∀ v, LeadsFrom tables reader edges direction relations start d v → ¬Foreign tables reader v) ∧
      (∀ result, related tables reader reference direction depth relations = .ok result → result.focal = focal ∧
        Shortest tables reader edges direction relations start depth result.nodes result.edges ∧
        ∀ edge ∈ result.edges, ∀ d u, Near tables reader edges direction relations start d u →
          ∀ candidate ∈ incident edges direction relations u, edgeKey candidate.edge = edge.key → edge.depth ≤ d + 1) ∧
      ∀ other : ProjectionReader δ, Yields tables edges other → SameDocuments reader other →
        (∀ result again, related tables reader reference direction depth relations = .ok result →
          related tables other reference direction depth relations = .ok again →
          again.nodes = result.nodes ∧ (depthsAndKeys again.edges).Perm (depthsAndKeys result.edges)) ∧
        (Sorted edges → related tables other reference direction depth relations = related tables reader reference direction depth relations) := by
  constructor
  · intro error refused
    unfold related
    rw [refused]
    rfl
  · intro focal start resolved printed
    obtain ⟨returns, spec⟩ := related_spec direction depth relations lawful yields resolved printed
    refine ⟨returns, ?_, ?_⟩
    · intro result done
      obtain ⟨same, shortest⟩ := spec result done
      exact ⟨same, shortest, fun edge member d u near candidate found key => shortest.depth_le member near found key⟩
    · intro other also same
      have begins : Parses tables reader start := ⟨focal.descriptor, resolve_parses lawful resolved printed, (resolve_ok resolved).2.1⟩
      have resolved' : resolve tables other reference = .ok focal := (same.resolve reference).trans resolved
      obtain ⟨_, spec'⟩ := related_spec direction depth relations lawful also resolved' printed
      constructor
      · intro result again done ended
        refine ⟨?_, Shortest.edges_perm (spec result done).2 ((spec' again ended).2.same same)⟩
        rw [related_cases resolved printed] at done
        rw [related_cases resolved' printed] at ended
        split at done
        · next still =>
          rw [if_pos still] at ended
          rw [← Except.ok.inj done, ← Except.ok.inj ended]
        · next moving =>
          rw [if_neg moving] at ended
          cases one : levels tables reader direction relations depth 0 [start] ⟨[start], [], [], [], []⟩ with
          | error error =>
            rw [one] at done
            cases done
          | ok after =>
            cases two : levels tables other direction relations depth 0 [start] ⟨[start], [], [], [], []⟩ with
            | error error =>
              rw [two] at ended
              cases ended
            | ok last =>
              rw [one] at done
              rw [two] at ended
              rw [← Except.ok.inj done, ← Except.ok.inj ended]
              exact levels_alike yields also same begins (explored_start _ _ yields begins) (explored_start _ _ also (same.parses begins)) rfl rfl one two
      · intro sorted
        rw [related_cases resolved printed, related_cases resolved' printed,
          levels_same yields also same sorted begins (explored_start _ _ yields begins)]

/-! A task with two edges to one ticket. -/

def listReader (context : Text) (edges : List EdgeRecord) : ProjectionReader Unit where
  contextId := context
  getDocumentByUri _ := .ok none
  outboundEdges uri relations := .ok (edges.filter fun edge => decide (uri.str.toOption = some edge.source) && relations.allow edge.relation)
  inboundEdges current relations := .ok (edges.filter fun edge => decide (edge.target = current) && relations.allow edge.relation)

theorem listReader_yields (tables : Tables) (context : Text) (edges : List EdgeRecord) : Yields tables edges (listReader context edges) := by
  constructor
  · exact fun _ _ => ⟨none, rfl⟩
  · intro uri current relations _ printed
    refine ⟨_, rfl, List.Perm.of_eq ?_⟩
    apply filter_congr
    intro edge _
    rw [printed]
    simp [Except.toOption, eq_comm]
  · exact fun current _ relations _ _ => ⟨_, rfl, List.Perm.refl _⟩

def taskOne : WorkctxUri := ⟨literal "acme".toList, literal "task".toList, literal "T-1".toList, by decide⟩

def taskTwo : WorkctxUri := ⟨literal "globex".toList, literal "task".toList, literal "T-2".toList, by decide⟩

theorem taskOne_printed : taskOne.str = .ok (literal "workctx://acme/task/T-1".toList) := by rfl

def taskEdge (target : String) (note : Option String) : EdgeRecord where
  sourceUri := taskOne
  source := literal "workctx://acme/task/T-1".toList
  relation := .relatedTo
  target := literal target.toList
  confidence := none
  sourceObservations := []
  validFrom := none
  validTo := none
  note := note
  sourcePath := "03_work/T-1.md"
  ordinal := 0
  topics := []
  printed := taskOne_printed

def plainTables : Tables := ⟨id, id, fun _ => false⟩

def acme : Text := literal "acme".toList

def taskText : Text := literal "workctx://acme/task/T-1".toList

theorem sortedBy_pair {α κ : Type} [LinearOrder κ] {key : α → κ} {one two : α} (le : key one ≤ key two) : sortedBy key [one, two] = [one, two] := by
  unfold sortedBy
  exact mergeSort_of_pairwise (by simpa using le)

theorem taskText_parsed : parseDurableReference plainTables taskText = .ok (.workctx taskOne) :=
  @DurableReference.parse_str plainTables (fun _ _ => rfl) (.workctx taskOne) taskText taskOne_printed
    (fun uri same => by rw [← DurableReference.workctx.inj same]; rfl) (fun _ => nofun)

theorem pair_found (one two : Option String) :
    candidates plainTables (listReader acme [taskEdge "https://ticket" one, taskEdge "https://ticket" two]) taskText .outbound none =
      .ok [outboundCandidate (taskEdge "https://ticket" one), outboundCandidate (taskEdge "https://ticket" two)] := by
  have sorted : candidateKey (outboundCandidate (taskEdge "https://ticket" one)) ≤ candidateKey (outboundCandidate (taskEdge "https://ticket" two)) := le_rfl
  have yielded : outboundOf (listReader acme [taskEdge "https://ticket" one, taskEdge "https://ticket" two]) .outbound none (.workctx taskOne) =
      .ok [taskEdge "https://ticket" one, taskEdge "https://ticket" two] := rfl
  rw [← sortedBy_pair sorted]
  unfold candidates
  exact bind_ok.mpr ⟨_, ofValue_ok.mpr taskText_parsed, bind_ok.mpr ⟨_, yielded, bind_ok.mpr ⟨[], rfl, rfl⟩⟩⟩

theorem levels_one {state : Traversal δ} {u : Text} {seen : List Candidate} (found : candidates tables reader u direction relations = .ok seen)
    (passable : ∀ candidate ∈ seen, Passable tables reader candidate.neighbor) :
    levels tables reader direction relations 1 0 [u] state = .ok (meet tables reader 1 (traverseAll 1 { state with nextFrontier := [] } seen)
      (fresh state.visitedReferences (seen.map Candidate.neighbor))) := by
  have alone : sortedBy codes [u] = [u] := mergeSort_singleton _
  have visited := (@foldlM_visit _ tables reader 1 seen { state with nextFrontier := [] } _).mpr ⟨fun candidate member => .inr (passable candidate member), rfl⟩
  unfold levels
  rw [alone, foldlM_cons]
  unfold expand
  rw [found]
  dsimp only [bind, Except.bind]
  rw [visited]
  dsimp only [foldlM_nil, pure, Except.pure]
  split <;> rfl

theorem related_tickets (one two : Option String) (differ : one ≠ two) : ∃ result,
    related plainTables (listReader acme [taskEdge "https://ticket" one, taskEdge "https://ticket" two]) (.reference (.workctx taskOne)) .outbound 1 none =
      .ok result ∧ result.edges = [⟨1, .outbound, taskEdge "https://ticket" one⟩, ⟨1, .outbound, taskEdge "https://ticket" two⟩] ∧ result.nodes = [] := by
  have resolved : resolve plainTables (listReader acme [taskEdge "https://ticket" one, taskEdge "https://ticket" two]) (.reference (.workctx taskOne)) =
      .ok ⟨.notFound, .workctx taskOne, none⟩ := rfl
  have printed : (⟨.notFound, .workctx taskOne, none⟩ : ResolutionResult Unit).reference = .ok taskText := rfl
  obtain ⟨cause, refused⟩ : ∃ cause, resolve plainTables (listReader acme [taskEdge "https://ticket" one, taskEdge "https://ticket" two])
      (.text (literal "https://ticket".toList)) = .error (.value cause) := ⟨_, rfl⟩
  have external : ∀ candidate ∈ [outboundCandidate (taskEdge "https://ticket" one), outboundCandidate (taskEdge "https://ticket" two)],
      candidate.neighbor = literal "https://ticket".toList := by
    simp [outboundCandidate, taskEdge]
  have passable : ∀ candidate ∈ [outboundCandidate (taskEdge "https://ticket" one), outboundCandidate (taskEdge "https://ticket" two)],
      Passable plainTables (listReader acme [taskEdge "https://ticket" one, taskEdge "https://ticket" two]) candidate.neighbor := by
    intro candidate member error stopped
    rw [external candidate member, refused] at stopped
    exact ⟨cause, (Except.error.inj stopped).symm⟩
  have apart : ¬∃ traversed ∈ [traversedAt 1 (outboundCandidate (taskEdge "https://ticket" one))],
      traversed.key = (traversedAt 1 (outboundCandidate (taskEdge "https://ticket" two))).key := by
    rintro ⟨traversed, member, same⟩
    rw [mem_singleton.mp member] at same
    exact differ (congrArg EdgeKey.note same)
  have start : Keyed (⟨[taskText], [], [], [], []⟩ : Traversal Unit) := by
    intro key
    simp
  rw [related_cases resolved printed, if_neg (by simp), levels_one (pair_found one two) passable]
  refine ⟨_, rfl, ?_, ?_⟩
  · dsimp only [meet]
    rw [(traverseAll_keyed start 1 _).1]
    have first : keepFirst TraversedEdge.key [] (traversedAt 1 (outboundCandidate (taskEdge "https://ticket" one))) =
        [traversedAt 1 (outboundCandidate (taskEdge "https://ticket" one))] := rfl
    rw [map_cons, map_singleton, foldl_cons, first, foldl_cons, keepFirst_new apart]
    rfl
  · dsimp only [meet]
    rw [(traverseAll_rest 1 _ _).2.1, nil_append, filterMap_eq_nil_iff]
    intro v member
    obtain ⟨candidate, known, rfl⟩ := mem_map.mp (mem_fresh.mp member).1
    unfold nodeAt
    rw [external candidate known, refused]
    rfl
theorem Yields.perm (yields : Yields tables edges reader) {others : List EdgeRecord} (permuted : edges.Perm others) : Yields tables others reader := by
  constructor
  · exact yields.documents
  · intro uri current relations own printed
    obtain ⟨yielded, asked, same⟩ := yields.outbound uri current relations own printed
    exact ⟨yielded, asked, same.trans (permuted.filter _)⟩
  · intro current reference relations read own
    obtain ⟨yielded, asked, same⟩ := yields.inbound current reference relations read own
    exact ⟨yielded, asked, same.trans (permuted.filter _)⟩

/-- An edge to another context ends the traversal, an external reference is no node, and edges that differ in nothing they are sorted by
come as they are read. -/
theorem related_refuses_and_orders :
    (¬∃ result, related plainTables (listReader acme [taskEdge "workctx://globex/task/T-2" none]) (.reference (.workctx taskOne)) .outbound 1 none =
      .ok result) ∧
    Yields plainTables [taskEdge "https://ticket" none, taskEdge "https://ticket" (some "late")]
      (listReader acme [taskEdge "https://ticket" none, taskEdge "https://ticket" (some "late")]) ∧
    Yields plainTables [taskEdge "https://ticket" none, taskEdge "https://ticket" (some "late")]
      (listReader acme [taskEdge "https://ticket" (some "late"), taskEdge "https://ticket" none]) ∧
    ∃ result again,
      related plainTables (listReader acme [taskEdge "https://ticket" none, taskEdge "https://ticket" (some "late")])
        (.reference (.workctx taskOne)) .outbound 1 none = .ok result ∧
      related plainTables (listReader acme [taskEdge "https://ticket" (some "late"), taskEdge "https://ticket" none])
        (.reference (.workctx taskOne)) .outbound 1 none = .ok again ∧
      result.nodes = [] ∧ result.edges ≠ again.edges := by
  refine ⟨?_, listReader_yields _ _ _, (listReader_yields _ _ _).perm (List.Perm.swap _ _ _), ?_⟩
  · have printed : taskTwo.str = .ok (literal "workctx://globex/task/T-2".toList) := rfl
    have foreign : Foreign plainTables (listReader acme [taskEdge "workctx://globex/task/T-2" none]) (literal "workctx://globex/task/T-2".toList) := by
      refine ⟨taskTwo, @DurableReference.parse_str _ (fun _ _ => rfl) (.workctx taskTwo) _ printed ?_ (fun _ => nofun), by decide⟩
      intro uri same
      rw [← DurableReference.workctx.inj same]
      rfl
    have leads : LeadsFrom plainTables (listReader acme [taskEdge "workctx://globex/task/T-2" none])
        [taskEdge "workctx://globex/task/T-2" none] .outbound none taskText 0 (literal "workctx://globex/task/T-2".toList) :=
      ⟨taskText, atDistance_zero.mpr rfl, _, List.mem_cons_self, rfl⟩
    have resolved : resolve plainTables (listReader acme [taskEdge "workctx://globex/task/T-2" none]) (.reference (.workctx taskOne)) =
        .ok ⟨.notFound, .workctx taskOne, none⟩ := rfl
    rw [(related_spec .outbound 1 none (fun _ _ => rfl) (listReader_yields _ _ _) resolved rfl).1]
    exact fun every => every 0 (by decide) _ leads foreign
  · obtain ⟨result, done, edges, nodes⟩ := related_tickets none (some "late") (by decide)
    obtain ⟨again, ended, others, _⟩ := related_tickets (some "late") none (by decide)
    refine ⟨result, again, done, ended, nodes, fun same => ?_⟩
    rw [edges, others, List.cons.injEq, TraversedEdge.mk.injEq] at same
    exact absurd (congrArg EdgeRecord.note same.1.2.2) (by decide)

/-- One edge leads to an external reference, which is no node. -/
theorem related_shortest_ticket : ∃ result,
    related plainTables (listReader acme [taskEdge "https://ticket" none]) (.reference (.workctx taskOne)) .outbound 3 none = .ok result ∧
      ∀ edge ∈ result.edges, ∃ d < 3, edge.depth = d + 1 := by
  have spec := related_shortest plainTables (fun _ _ => rfl) [taskEdge "https://ticket" none] (listReader acme [taskEdge "https://ticket" none])
    (listReader_yields _ _ _) (.reference (.workctx taskOne)) .outbound 3 none
  obtain ⟨returns, within, _⟩ := spec.2 ⟨.notFound, .workctx taskOne, none⟩ taskText rfl rfl
  have native : ∀ d < 3, ∀ v, LeadsFrom plainTables (listReader acme [taskEdge "https://ticket" none]) [taskEdge "https://ticket" none]
      .outbound none taskText d v → ¬Foreign plainTables (listReader acme [taskEdge "https://ticket" none]) v := by
    rintro d _ v ⟨u, _, candidate, member, rfl⟩ ⟨uri, read, _⟩
    have external : parseDurableReference plainTables (literal "https://ticket".toList) = .ok (.external (literal "https://ticket".toList)) := rfl
    have same : candidate.neighbor = literal "https://ticket".toList := by
      unfold incident at member
      rw [if_pos (by decide), if_neg (by decide), List.append_nil] at member
      obtain ⟨edge, kept, rfl⟩ := List.mem_map.mp member
      rw [List.mem_singleton.mp (List.mem_filter.mp kept).1]
      rfl
    rw [same, external] at read
    cases read
  obtain ⟨result, done⟩ := returns.mpr native
  refine ⟨result, done, fun edge member => ?_⟩
  obtain ⟨d, less, _, _, _, _, rfl⟩ := (within result done).2.1.sound edge member
  exact ⟨d, less, rfl⟩

end Workctx.Projection
