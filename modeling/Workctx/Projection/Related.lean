import Workctx.Projection.Graph
import Workctx.References.RoundTrip
import Workctx.Search.Levels

/-! The traversal finds the references within a distance, and the edges on the way, in whatever order the edges are read. -/

namespace Workctx.Projection
open Workctx.References Workctx.Retrieval Workctx.Search List
open Workctx.Domain (bind_ok)

variable {δ : Type} {tables : Tables} {reader : ProjectionReader δ} {direction : TraversalDirection} {relations : Relations}

/-! Resolved references. -/

def InContext (reader : ProjectionReader δ) : DurableReference → Prop
  | .workctx uri => uri.contextId = reader.contextId
  | .artifact _ => True
  | .repo _ => True
  | .external _ => False

theorem ofValue_ok {α : Type} {outcome : Except ReferenceError α} {value : α} : ofValue outcome = .ok value ↔ outcome = .ok value := by
  unfold ofValue
  cases outcome <;> simp [Except.mapError]

variable {resolution : ResolutionResult δ}

theorem resolve_ok {reference : ResolvableReference} (done : resolve tables reader reference = .ok resolution) :
    parseReference tables reference = .ok resolution.descriptor ∧ InContext reader resolution.descriptor ∧
      ∀ uri, resolution.descriptor = .workctx uri → checkEntityType uri.entityType = .ok () := by
  obtain ⟨parsed, read, rest⟩ := bind_ok.mp done
  rw [ofValue_ok] at read
  cases parsed with
  | workctx uri =>
    obtain ⟨_, known, rest⟩ := bind_ok.mp rest
    rw [ofValue_ok] at known
    split at rest
    · cases rest
    · next own =>
      obtain ⟨record, _, rest⟩ := bind_ok.mp rest
      cases rest
      refine ⟨read, not_not.mp own, fun other same => ?_⟩
      rw [← DurableReference.workctx.inj same]
      exact known
  | artifact artifact =>
    cases rest
    exact ⟨read, trivial, fun _ other => nomatch other⟩
  | repo repo =>
    cases rest
    exact ⟨read, trivial, fun _ other => nomatch other⟩
  | external value => cases rest

theorem parseReference_text (value : Text) : parseReference tables (.text value) = parseDurableReference tables value := rfl

variable {text : Text} {state : Traversal δ}

theorem resolve_text (done : resolve tables reader (.text text) = .ok resolution) :
    resolution.reference = .ok text :=
  ofValue_ok.mpr (DurableReference.str_of_parse (resolve_ok done).1)

theorem resolve_parses (lawful : tables.KeepsLower) {reference : ResolvableReference}
    (done : resolve tables reader reference = .ok resolution) (printed : resolution.reference = .ok text) :
    parseDurableReference tables text = .ok resolution.descriptor := by
  obtain ⟨_, own, known⟩ := resolve_ok done
  refine DurableReference.parse_str lawful (ofValue_ok.mp printed) known fun value external => ?_
  rw [external] at own
  exact own

/-! Candidates. -/

/-- The edges at a reference, with the references that they lead to. -/
def incident (edges : List EdgeRecord) (direction : TraversalDirection) (relations : Relations) (current : Text) : List Candidate :=
  (if direction ≠ .inbound then
    (edges.filter fun edge => decide (edge.source = current) && relations.allow edge.relation).map outboundCandidate else []) ++
  if direction ≠ .outbound then
    (edges.filter fun edge => decide (edge.target = current) && relations.allow edge.relation).map inboundCandidate else []

structure Yields (tables : Tables) (edges : List EdgeRecord) (reader : ProjectionReader δ) : Prop where
  documents : ∀ uri, uri.contextId = reader.contextId → ∃ record, reader.getDocumentByUri uri = .ok record
  outbound : ∀ uri current relations, uri.contextId = reader.contextId → uri.str = .ok current → ∃ yielded,
    reader.outboundEdges uri relations = .ok yielded ∧
      yielded.Perm (edges.filter fun edge => decide (edge.source = current) && relations.allow edge.relation)
  inbound : ∀ current reference relations, parseDurableReference tables current = .ok reference → InContext reader reference → ∃ yielded,
    reader.inboundEdges current relations = .ok yielded ∧
      yielded.Perm (edges.filter fun edge => decide (edge.target = current) && relations.allow edge.relation)

theorem source_head (edge : EdgeRecord) : edge.source.head? = some (.scalar 'w') := by
  obtain ⟨encoded, _, rest⟩ := bind_ok.mp edge.printed
  rw [← Except.ok.inj rest]
  rfl

theorem repo_head {reference : RepoReference} (printed : reference.str = .ok text) : text.head? = some (.scalar 'r') := by
  obtain ⟨_, _, rest⟩ := bind_ok.mp printed
  obtain ⟨_, _, rest⟩ := bind_ok.mp rest
  obtain ⟨_, _, rest⟩ := bind_ok.mp rest
  rw [← Except.ok.inj rest]
  rfl

variable {edges : List EdgeRecord}

theorem no_source {current : Text} {start : Char} (begins : current.head? = some (.scalar start)) (other : start ≠ 'w') :
    (edges.filter fun edge => decide (edge.source = current) && relations.allow edge.relation) = [] := by
  rw [filter_eq_nil_iff]
  intro edge _ kept
  have same := of_decide_eq_true ((Bool.and_eq_true _ _).mp kept).1
  rw [← same, source_head] at begins
  exact other (CodePoint.scalar.inj (Option.some.inj begins)).symm

theorem candidates_ok (direction : TraversalDirection) (relations : Relations) (yields : Yields tables edges reader) {current : Text} {reference : DurableReference}
    (read : parseDurableReference tables current = .ok reference) (own : InContext reader reference) :
    ∃ yielded, candidates tables reader current direction relations = .ok (sortedBy candidateKey yielded) ∧
      yielded.Perm (incident edges direction relations current) := by
  have text := DurableReference.str_of_parse read
  obtain ⟨back, asked, permuted⟩ := yields.inbound current reference relations read own
  have inbound : ∃ found, inboundOf reader direction relations current = .ok found ∧
      (found.map inboundCandidate).Perm (if direction ≠ .outbound then
        (edges.filter fun edge => decide (edge.target = current) && relations.allow edge.relation).map inboundCandidate else []) := by
    unfold inboundOf
    by_cases followed : direction ≠ .outbound
    · rw [if_pos followed, if_pos followed, asked]
      exact ⟨back, rfl, permuted.map inboundCandidate⟩
    · rw [if_neg followed, if_neg followed]
      exact ⟨[], rfl, List.Perm.refl _⟩
  have outbound : ∃ found, outboundOf reader direction relations reference = .ok found ∧ (found.map outboundCandidate).Perm (if direction ≠ .inbound then
        (edges.filter fun edge => decide (edge.source = current) && relations.allow edge.relation).map outboundCandidate else []) := by
    cases reference with
    | workctx uri =>
      obtain ⟨front, asked, permuted⟩ := yields.outbound uri current relations own text
      dsimp only [outboundOf]
      by_cases followed : direction ≠ .inbound
      · rw [if_pos followed, if_pos followed, asked]
        exact ⟨front, rfl, permuted.map outboundCandidate⟩
      · rw [if_neg followed, if_neg followed]
        exact ⟨[], rfl, List.Perm.refl _⟩
    | artifact artifact =>
      have begins : current.head? = some (.scalar 'a') := by
        rw [← Except.ok.inj text]
        rfl
      refine ⟨[], rfl, ?_⟩
      rw [no_source begins (by decide)]
      split <;> exact List.Perm.refl _
    | repo repo =>
      refine ⟨[], rfl, ?_⟩
      rw [no_source (repo_head text) (by decide)]
      split <;> exact List.Perm.refl _
    | external value => exact own.elim
  obtain ⟨front, first, placed⟩ := outbound
  obtain ⟨behind, second, stands⟩ := inbound
  refine ⟨front.map outboundCandidate ++ behind.map inboundCandidate, ?_, placed.append stands⟩
  unfold candidates
  exact bind_ok.mpr ⟨reference, ofValue_ok.mpr read, bind_ok.mpr ⟨front, first, bind_ok.mpr ⟨behind, second, rfl⟩⟩⟩

/-! One level. -/

def Passable (tables : Tables) (reader : ProjectionReader δ) (text : Text) : Prop :=
  ∀ error, resolve tables reader (.text text) = .error error → ∃ cause, error = .value cause

def nodeAt (tables : Tables) (reader : ProjectionReader δ) (depth : Nat) (text : Text) : Option (RelatedNode δ) :=
  (resolve tables reader (.text text)).toOption.map fun resolution => ⟨depth, resolution⟩

def resolves (tables : Tables) (reader : ProjectionReader δ) (text : Text) : Bool := (resolve tables reader (.text text)).toOption.isSome

def meet (tables : Tables) (reader : ProjectionReader δ) (depth : Nat) (state : Traversal δ) (met : List Text) : Traversal δ :=
  { state with
    visitedReferences := met.reverse ++ state.visitedReferences
    nodes := state.nodes ++ met.filterMap (nodeAt tables reader depth)
    nextFrontier := state.nextFrontier ++ met.filter (resolves tables reader) }

theorem visit_ok {depth : Nat} {after : Traversal δ} {candidate : Candidate} :
    visit tables reader depth state candidate = .ok after ↔
      (candidate.neighbor ∈ state.visitedReferences ∨ Passable tables reader candidate.neighbor) ∧
        after = meet tables reader depth (state.traverse depth candidate) (fresh state.visitedReferences [candidate.neighbor]) := by
  have visited : (state.traverse depth candidate).visitedReferences = state.visitedReferences := by
    unfold Traversal.traverse
    split <;> rfl
  have nothing : ∀ state : Traversal δ, meet tables reader depth state [] = state := by
    intro state
    unfold meet
    simp
  unfold visit
  dsimp only
  rw [visited]
  by_cases old : candidate.neighbor ∈ state.visitedReferences
  · simp only [old, if_true, true_or, true_and, fresh, nothing, Except.ok.injEq]
    exact eq_comm
  · simp only [old, if_false, false_or, fresh, meet, Passable]
    cases resolved : resolve tables reader (.text candidate.neighbor) with
    | error error =>
      have unnamed : nodeAt tables reader depth candidate.neighbor = none ∧ resolves tables reader candidate.neighbor = false := by
        unfold nodeAt resolves
        rw [resolved]
        exact ⟨rfl, rfl⟩
      cases error with
      | value cause => simp [unnamed.1, unnamed.2, visited, eq_comm]
      | isolation message => simp
      | boundary message => simp
    | ok resolution =>
      have named : nodeAt tables reader depth candidate.neighbor = some ⟨depth, resolution⟩ ∧ resolves tables reader candidate.neighbor = true := by
        unfold nodeAt resolves
        rw [resolved]
        exact ⟨rfl, rfl⟩
      dsimp only
      rw [resolve_text resolved]
      simp [named.1, named.2, visited, eq_comm, bind, Except.bind]

theorem meet_meet (depth : Nat) (state : Traversal δ) (one two : List Text) :
    meet tables reader depth (meet tables reader depth state one) two = meet tables reader depth state (one ++ two) := by
  unfold meet
  simp

theorem traverse_meet (depth : Nat) (state : Traversal δ) (met : List Text) (candidate : Candidate) :
    (meet tables reader depth state met).traverse depth candidate = meet tables reader depth (state.traverse depth candidate) met := by
  unfold meet Traversal.traverse
  dsimp only
  split <;> rfl

def traverseAll (depth : Nat) (state : Traversal δ) (seen : List Candidate) : Traversal δ :=
  seen.foldl (fun state candidate => state.traverse depth candidate) state

theorem traverseAll_meet (depth : Nat) (state : Traversal δ) (met : List Text) (seen : List Candidate) :
    traverseAll depth (meet tables reader depth state met) seen = meet tables reader depth (traverseAll depth state seen) met := by
  unfold traverseAll
  induction seen generalizing state with
  | nil => rfl
  | cons candidate rest ih => rw [foldl_cons, foldl_cons, traverse_meet, ih]

theorem traverse_visited (depth : Nat) (state : Traversal δ) (candidate : Candidate) :
    (state.traverse depth candidate).visitedReferences = state.visitedReferences := by
  unfold Traversal.traverse
  split <;> rfl

theorem fresh_cons (met : List Text) (text : Text) (rest : List Text) :
    fresh met (text :: rest) = fresh met [text] ++ fresh ((fresh met [text]).reverse ++ met) rest := by
  by_cases old : text ∈ met
  · simp only [fresh, old, if_true, nil_append, reverse_nil]
  · simp only [fresh, old, if_false, singleton_append, reverse_singleton]

theorem foldlM_visit {depth : Nat} {seen : List Candidate} {state after : Traversal δ} :
    seen.foldlM (visit tables reader depth) state = .ok after ↔
      (∀ candidate ∈ seen, candidate.neighbor ∈ state.visitedReferences ∨ Passable tables reader candidate.neighbor) ∧
        after = meet tables reader depth (traverseAll depth state seen) (fresh state.visitedReferences (seen.map Candidate.neighbor)) := by
  induction seen generalizing state with
  | nil =>
    have nothing : meet tables reader depth (traverseAll depth state []) (fresh state.visitedReferences []) = state := by
      unfold meet traverseAll fresh
      simp
    rw [map_nil, nothing]
    simp [pure, Except.pure, eq_comm]
  | cons candidate rest ih =>
    have met : (meet tables reader depth (state.traverse depth candidate) (fresh state.visitedReferences [candidate.neighbor])).visitedReferences =
        (fresh state.visitedReferences [candidate.neighbor]).reverse ++ state.visitedReferences := by
      unfold meet
      rw [traverse_visited]
    have both : (∃ middle, visit tables reader depth state candidate = .ok middle ∧ rest.foldlM (visit tables reader depth) middle = .ok after) ↔
        (candidate.neighbor ∈ state.visitedReferences ∨ Passable tables reader candidate.neighbor) ∧
        (∀ other ∈ rest, other.neighbor ∈ (fresh state.visitedReferences [candidate.neighbor]).reverse ++ state.visitedReferences ∨
          Passable tables reader other.neighbor) ∧
        after = meet tables reader depth (traverseAll depth state (candidate :: rest))
          (fresh state.visitedReferences ((candidate :: rest).map Candidate.neighbor)) := by
      simp only [visit_ok, ih]
      constructor
      · rintro ⟨_, ⟨here, rfl⟩, later, rfl⟩
        rw [met] at later ⊢
        rw [traverseAll_meet, meet_meet, map_cons, fresh_cons _ _ (rest.map Candidate.neighbor)]
        exact ⟨here, later, rfl⟩
      · rintro ⟨here, later, rfl⟩
        refine ⟨_, ⟨here, rfl⟩, ?_⟩
        rw [met, traverseAll_meet, meet_meet, map_cons, fresh_cons _ _ (rest.map Candidate.neighbor)]
        exact ⟨later, rfl⟩
    rw [foldlM_cons, bind_ok, both, forall_mem_cons, and_assoc]
    apply and_congr_right
    intro here
    apply and_congr_left
    intro _
    apply forall₂_congr
    intro other _
    rw [mem_append, mem_reverse, mem_fresh, mem_singleton]
    constructor
    · rintro ((⟨same, new⟩ | old) | pass)
      · rw [same] at new ⊢
        exact .inr (here.resolve_left new)
      · exact .inl old
      · exact .inr pass
    · rintro (old | pass)
      · exact .inl (.inr old)
      · exact .inr pass

/-! The edges of a level. -/

def TraversedEdge.key (traversed : TraversedEdge) : EdgeKey := edgeKey traversed.edge

def Keyed (state : Traversal δ) : Prop := ∀ key, key ∈ state.visitedEdges ↔ ∃ traversed ∈ state.traversedEdges, traversed.key = key

def traversedAt (depth : Nat) (candidate : Candidate) : TraversedEdge := ⟨depth, candidate.direction, candidate.edge⟩

theorem traverse_keyed (keyed : Keyed state) (depth : Nat) (candidate : Candidate) :
    (state.traverse depth candidate).traversedEdges = keepFirst TraversedEdge.key state.traversedEdges (traversedAt depth candidate) ∧
      Keyed (state.traverse depth candidate) := by
  unfold Traversal.traverse
  by_cases old : edgeKey candidate.edge ∈ state.visitedEdges
  · have known := (keyed (edgeKey candidate.edge)).mp old
    rw [if_pos old, keepFirst_old known]
    exact ⟨rfl, keyed⟩
  · have unknown : ¬∃ traversed ∈ state.traversedEdges, traversed.key = (traversedAt depth candidate).key := fun known => old ((keyed _).mpr known)
    rw [if_neg old, keepFirst_new unknown]
    refine ⟨rfl, fun key => ?_⟩
    dsimp only
    rw [mem_cons, keyed]
    simp only [mem_append, mem_singleton, or_and_right, exists_or, exists_eq_left]
    rw [or_comm, eq_comm (a := key)]
    rfl

theorem traverseAll_keyed (keyed : Keyed state) (depth : Nat) (seen : List Candidate) :
    (traverseAll depth state seen).traversedEdges =
      (seen.map (traversedAt depth)).foldl (keepFirst TraversedEdge.key) state.traversedEdges ∧
    Keyed (traverseAll depth state seen) := by
  unfold traverseAll
  induction seen generalizing state with
  | nil => exact ⟨rfl, keyed⟩
  | cons candidate rest ih =>
    obtain ⟨kept, still⟩ := traverse_keyed keyed depth candidate
    obtain ⟨later, last⟩ := ih still
    rw [foldl_cons, later, kept]
    exact ⟨rfl, last⟩

theorem traverseAll_rest (depth : Nat) (state : Traversal δ) (seen : List Candidate) :
    (traverseAll depth state seen).visitedReferences = state.visitedReferences ∧ (traverseAll depth state seen).nodes = state.nodes ∧
      (traverseAll depth state seen).nextFrontier = state.nextFrontier := by
  unfold traverseAll
  induction seen generalizing state with
  | nil => exact ⟨rfl, rfl, rfl⟩
  | cons candidate rest ih =>
    have one : (state.traverse depth candidate).visitedReferences = state.visitedReferences ∧
        (state.traverse depth candidate).nodes = state.nodes ∧ (state.traverse depth candidate).nextFrontier = state.nextFrontier := by
      unfold Traversal.traverse
      split <;> exact ⟨rfl, rfl, rfl⟩
    obtain ⟨visited, nodes, frontier⟩ := ih (state.traverse depth candidate)
    exact ⟨visited.trans one.1, nodes.trans one.2.1, frontier.trans one.2.2⟩

/-! Distances. -/

def Leads (edges : List EdgeRecord) (direction : TraversalDirection) (relations : Relations) (u v : Text) : Prop :=
  ∃ candidate ∈ incident edges direction relations u, candidate.neighbor = v

/-- The steps of the traversal, to references that resolve. -/
def Next (tables : Tables) (reader : ProjectionReader δ) (edges : List EdgeRecord) (direction : TraversalDirection) (relations : Relations)
    (u v : Text) : Prop :=
  Leads edges direction relations u v ∧ resolves tables reader v = true

def Near (tables : Tables) (reader : ProjectionReader δ) (edges : List EdgeRecord) (direction : TraversalDirection) (relations : Relations)
    (start : Text) (n : Nat) (v : Text) : Prop :=
  AtDistance (Next tables reader edges direction relations) start n v

theorem resolves_iff : resolves tables reader text = true ↔ ∃ resolution, resolve tables reader (.text text) = .ok resolution := by
  unfold resolves
  cases resolve tables reader (.text text) <;> simp [Except.toOption]

theorem nodeAt_some {depth : Nat} {node : RelatedNode δ} : nodeAt tables reader depth text = some node ↔
    node.depth = depth ∧ resolve tables reader (.text text) = .ok node.resolution := by
  unfold nodeAt
  obtain ⟨at_, found⟩ := node
  cases resolve tables reader (.text text) <;> simp [Except.toOption, eq_comm]

def Parses (tables : Tables) (reader : ProjectionReader δ) (text : Text) : Prop :=
  ∃ reference, parseDurableReference tables text = .ok reference ∧ InContext reader reference

theorem parses_of_resolves (found : resolves tables reader text = true) : Parses tables reader text := by
  obtain ⟨resolution, done⟩ := resolves_iff.mp found
  obtain ⟨read, own, _⟩ := resolve_ok done
  exact ⟨resolution.descriptor, read, own⟩

section
variable {start : Text}

variable {v : Text} {depth : Nat} {frontier : List Text}

theorem Near.parses (begins : Parses tables reader start) {n : Nat} (near : Near tables reader edges direction relations start n v) :
    Parses tables reader v := by
  cases n with
  | zero => exact atDistance_zero.mp near ▸ begins
  | succ n =>
    obtain ⟨_, _, _, found⟩ := near.before
    exact parses_of_resolves found

def foundAt (tables : Tables) (reader : ProjectionReader δ) (direction : TraversalDirection) (relations : Relations) (u : Text) : List Candidate :=
  (candidates tables reader u direction relations).toOption.getD []

theorem candidates_foundAt (yields : Yields tables edges reader) {u : Text} (parses : Parses tables reader u) :
    candidates tables reader u direction relations = .ok (foundAt tables reader direction relations u) ∧
      (foundAt tables reader direction relations u).Perm (incident edges direction relations u) := by
  obtain ⟨reference, read, own⟩ := parses
  obtain ⟨yielded, done, permuted⟩ := candidates_ok direction relations yields read own
  unfold foundAt
  rw [done]
  exact ⟨rfl, (sortedBy_perm candidateKey yielded).trans permuted⟩

variable {state : Traversal δ}

theorem foldlM_expand
    (answered : ∀ u ∈ frontier, candidates tables reader u direction relations = .ok (foundAt tables reader direction relations u)) :
    frontier.foldlM (expand tables reader direction relations depth) state =
      (frontier.flatMap (foundAt tables reader direction relations)).foldlM (visit tables reader depth) state := by
  induction frontier generalizing state with
  | nil => rfl
  | cons u rest ih =>
    have first : expand tables reader direction relations depth state u =
        (foundAt tables reader direction relations u).foldlM (visit tables reader depth) state := by
      unfold expand
      rw [answered u mem_cons_self]
      rfl
    rw [foldlM_cons, flatMap_cons, foldlM_append, first]
    congr 1
    funext middle
    exact ih fun other member => answered other (mem_cons_of_mem u member)

/-! The loop over the depths. -/

structure Explored (tables : Tables) (reader : ProjectionReader δ) (edges : List EdgeRecord) (direction : TraversalDirection)
    (relations : Relations) (start : Text) (depth : Nat) (frontier : List Text) (state : Traversal δ) : Prop where
  visited : ∀ v, v ∈ state.visitedReferences ↔
    v = start ∨ ∃ d < depth, ∃ u, Near tables reader edges direction relations start d u ∧ Leads edges direction relations u v
  passable : ∀ v ∈ state.visitedReferences, Passable tables reader v
  frontier : ∀ v, v ∈ frontier ↔ Near tables reader edges direction relations start depth v
  nodes : ∀ node, node ∈ state.nodes ↔
    ∃ d < depth, ∃ v, Near tables reader edges direction relations start (d + 1) v ∧ nodeAt tables reader (d + 1) v = some node
  unique : (state.nodes.map fun node => node.resolution.reference).Nodup
  keyed : Keyed state
  once : (state.traversedEdges.map TraversedEdge.key).Nodup
  sound : ∀ traversed ∈ state.traversedEdges, ∃ d < depth, ∃ u, Near tables reader edges direction relations start d u ∧
    ∃ candidate ∈ incident edges direction relations u, traversed = traversedAt (d + 1) candidate
  complete : ∀ d < depth, ∀ u, Near tables reader edges direction relations start d u → ∀ candidate ∈ incident edges direction relations u,
    ∃ traversed ∈ state.traversedEdges, traversed.key = edgeKey candidate.edge ∧ traversed.depth ≤ d + 1

def LeadsFrom (tables : Tables) (reader : ProjectionReader δ) (edges : List EdgeRecord) (direction : TraversalDirection) (relations : Relations)
    (start : Text) (depth : Nat) (v : Text) : Prop :=
  ∃ u, Near tables reader edges direction relations start depth u ∧ Leads edges direction relations u v

theorem near_succ
    (explored : Explored tables reader edges direction relations start depth frontier state) :
    Near tables reader edges direction relations start (depth + 1) v ↔
      LeadsFrom tables reader edges direction relations start depth v ∧ resolves tables reader v = true ∧ v ∉ state.visitedReferences := by
  unfold Near LeadsFrom
  rw [atDistance_succ, explored.visited]
  constructor
  · rintro ⟨⟨u, near, leads, found⟩, away, apart⟩
    refine ⟨⟨u, near, leads⟩, found, ?_⟩
    rintro (here | ⟨d, less, w, level, also⟩)
    · exact away here
    · exact apart d less w level ⟨also, found⟩
  · rintro ⟨⟨u, near, leads⟩, found, new⟩
    refine ⟨⟨u, near, leads, found⟩, fun here => new (.inl here), ?_⟩
    intro d less w level step
    exact new (.inr ⟨d, less, w, level, step.1⟩)

theorem exists_le_succ {holds : Nat → Prop} : (∃ d < depth + 1, holds d) ↔ (∃ d < depth, holds d) ∨ holds depth := by
  constructor
  · rintro ⟨d, less, held⟩
    rcases Nat.lt_succ_iff_lt_or_eq.mp less with before | rfl
    · exact .inl ⟨d, before, held⟩
    · exact .inr held
  · rintro (⟨d, less, held⟩ | held)
    · exact ⟨d, Nat.lt_succ_of_lt less, held⟩
    · exact ⟨depth, Nat.lt_succ_self depth, held⟩

def seenAt (tables : Tables) (reader : ProjectionReader δ) (direction : TraversalDirection) (relations : Relations) (frontier : List Text) :
    List Candidate :=
  (sortedBy codes frontier).flatMap (foundAt tables reader direction relations)

section
variable (yields : Yields tables edges reader)
include yields

section
variable (begins : Parses tables reader start)
include begins

theorem mem_seenAt
    (level : ∀ v, v ∈ frontier ↔ Near tables reader edges direction relations start depth v) {candidate : Candidate} :
    candidate ∈ seenAt tables reader direction relations frontier ↔
      ∃ u, Near tables reader edges direction relations start depth u ∧ candidate ∈ incident edges direction relations u := by
  unfold seenAt
  rw [mem_flatMap]
  constructor
  · rintro ⟨u, member, found⟩
    have near := (level u).mp (mem_sortedBy.mp member)
    exact ⟨u, near, (candidates_foundAt yields (near.parses begins)).2.mem_iff.mp found⟩
  · rintro ⟨u, near, found⟩
    exact ⟨u, mem_sortedBy.mpr ((level u).mpr near), (candidates_foundAt yields (near.parses begins)).2.mem_iff.mpr found⟩

theorem mem_neighbors
    (level : ∀ v, v ∈ frontier ↔ Near tables reader edges direction relations start depth v) :
    v ∈ (seenAt tables reader direction relations frontier).map Candidate.neighbor ↔
      LeadsFrom tables reader edges direction relations start depth v := by
  rw [mem_map]
  unfold LeadsFrom Leads
  constructor
  · rintro ⟨candidate, member, same⟩
    obtain ⟨u, near, found⟩ := (mem_seenAt yields begins level).mp member
    exact ⟨u, near, candidate, found, same⟩
  · rintro ⟨u, near, candidate, found, same⟩
    exact ⟨candidate, (mem_seenAt yields begins level).mpr ⟨u, near, found⟩, same⟩

theorem expand_level {depth : Nat} {frontier : List Text}
    {state after : Traversal δ} (explored : Explored tables reader edges direction relations start depth frontier state) :
    (sortedBy codes frontier).foldlM (expand tables reader direction relations (depth + 1)) { state with nextFrontier := [] } = .ok after ↔
      (∀ v, LeadsFrom tables reader edges direction relations start depth v → Passable tables reader v) ∧
        after = meet tables reader (depth + 1) (traverseAll (depth + 1) { state with nextFrontier := [] }
          (seenAt tables reader direction relations frontier))
          (fresh state.visitedReferences ((seenAt tables reader direction relations frontier).map Candidate.neighbor)) := by
  have answered : ∀ u ∈ sortedBy codes frontier, candidates tables reader u direction relations = .ok (foundAt tables reader direction relations u) := by
    intro u member
    have near := (explored.frontier u).mp (mem_sortedBy.mp member)
    exact (candidates_foundAt yields (near.parses begins)).1
  rw [foldlM_expand answered]
  unfold seenAt
  rw [foldlM_visit]
  apply and_congr_left
  intro _
  constructor
  · intro every v leads
    obtain ⟨candidate, member, rfl⟩ := mem_map.mp ((mem_neighbors yields begins explored.frontier).mpr leads)
    exact (every candidate member).elim (explored.passable _) id
  · intro every candidate member
    exact .inr (every _ ((mem_neighbors yields begins explored.frontier).mp (mem_map_of_mem member)))

end

end

theorem nodeAt_reference {node : RelatedNode δ} (found : nodeAt tables reader depth v = some node) :
    node.resolution.reference = .ok v :=
  resolve_text (nodeAt_some.mp found).2

theorem nodeAt_resolves {node : RelatedNode δ} (found : nodeAt tables reader depth v = some node) :
    resolves tables reader v = true :=
  resolves_iff.mpr ⟨_, (nodeAt_some.mp found).2⟩

theorem nodes_nodup (depth : Nat) {met : List Text} (nodup : met.Nodup) :
    ((met.filterMap (nodeAt tables reader depth)).map fun node => node.resolution.reference).Nodup := by
  rw [nodup_iff_pairwise_ne, pairwise_map, pairwise_filterMap]
  apply (nodup_iff_pairwise_ne.mp nodup).imp
  intro one two differ node found other also same
  rw [nodeAt_reference found, nodeAt_reference also] at same
  exact differ (Except.ok.inj same)

theorem Explored.level (yields : Yields tables edges reader) (begins : Parses tables reader start)
    {after : Traversal δ} (explored : Explored tables reader edges direction relations start depth frontier state)
    (done : (sortedBy codes frontier).foldlM (expand tables reader direction relations (depth + 1)) { state with nextFrontier := [] } = .ok after) :
    Explored tables reader edges direction relations start (depth + 1) (sortedBy codes after.nextFrontier.dedup) after := by
  obtain ⟨passable, rfl⟩ := (expand_level yields begins explored).mp done
  have new : ∀ v, v ∈ fresh state.visitedReferences ((seenAt tables reader direction relations frontier).map Candidate.neighbor) ↔
      LeadsFrom tables reader edges direction relations start depth v ∧ v ∉ state.visitedReferences := by
    intro v
    rw [mem_fresh, mem_neighbors yields begins explored.frontier]
  have still : Keyed { state with nextFrontier := [] } := explored.keyed
  obtain ⟨kept, keyed⟩ := traverseAll_keyed still (depth + 1) (seenAt tables reader direction relations frontier)
  obtain ⟨visited, nodes, waiting⟩ := traverseAll_rest (depth + 1) { state with nextFrontier := [] } (seenAt tables reader direction relations frontier)
  obtain ⟨members, keys, nodup⟩ := @foldl_keepFirst _ _ _ TraversedEdge.key
    ((seenAt tables reader direction relations frontier).map (traversedAt (depth + 1))) state.traversedEdges
  have known : ∀ traversed, traversed ∈ ((seenAt tables reader direction relations frontier).map (traversedAt (depth + 1))).foldl
      (keepFirst TraversedEdge.key) state.traversedEdges → traversed ∈ state.traversedEdges ∨
        ∃ u, Near tables reader edges direction relations start depth u ∧ ∃ candidate ∈ incident edges direction relations u,
          traversed = traversedAt (depth + 1) candidate := by
    intro traversed member
    rcases members traversed member with old | later
    · exact .inl old
    · obtain ⟨candidate, seen, rfl⟩ := mem_map.mp later
      obtain ⟨u, near, found⟩ := (mem_seenAt yields begins explored.frontier).mp seen
      exact .inr ⟨u, near, candidate, found, rfl⟩
  constructor
  · intro v
    dsimp only [meet]
    have either : LeadsFrom tables reader edges direction relations start depth v ∧ v ∉ state.visitedReferences ∨ v ∈ state.visitedReferences ↔
        v ∈ state.visitedReferences ∨ LeadsFrom tables reader edges direction relations start depth v := by tauto
    rw [visited, mem_append, mem_reverse, new, either, explored.visited, exists_le_succ, or_assoc]
    rfl
  · intro v member
    dsimp only [meet] at member
    rw [visited, mem_append, mem_reverse, new] at member
    exact member.elim (fun fresh => passable v fresh.1) (explored.passable v)
  · intro v
    dsimp only [meet]
    rw [mem_sortedBy, mem_dedup, waiting, nil_append, mem_filter, new, near_succ explored]
    tauto
  · intro node
    dsimp only [meet]
    rw [nodes, mem_append, explored.nodes, exists_le_succ, mem_filterMap]
    apply or_congr_right
    apply exists_congr
    intro v
    rw [new, near_succ explored]
    constructor
    · rintro ⟨⟨leads, away⟩, found⟩
      exact ⟨⟨leads, nodeAt_resolves found, away⟩, found⟩
    · rintro ⟨⟨leads, _, away⟩, found⟩
      exact ⟨⟨leads, away⟩, found⟩
  · dsimp only [meet]
    rw [nodes, map_append, nodup_append]
    refine ⟨explored.unique, nodes_nodup (depth + 1) (fresh_nodup _ _), ?_⟩
    intro one old two later same
    obtain ⟨node, held, rfl⟩ := mem_map.mp old
    obtain ⟨other, added, rfl⟩ := mem_map.mp later
    obtain ⟨d, less, v, near, found⟩ := (explored.nodes node).mp held
    obtain ⟨w, fresh, also⟩ := mem_filterMap.mp added
    rw [nodeAt_reference found, nodeAt_reference also] at same
    cases same
    obtain ⟨u, level, leads, _⟩ := near.before
    exact ((new v).mp fresh).2 ((explored.visited v).mpr (.inr ⟨d, less, u, level, leads⟩))
  · exact keyed
  · dsimp only [meet]
    rw [kept]
    exact nodup explored.once
  · intro traversed member
    dsimp only [meet] at member
    rw [kept] at member
    rw [exists_le_succ]
    exact (known traversed member).imp_left (explored.sound traversed)
  · intro d less u near candidate found
    dsimp only [meet]
    rw [kept]
    rcases Nat.lt_succ_iff_lt_or_eq.mp less with before | rfl
    · obtain ⟨traversed, member, same, early⟩ := explored.complete d before u near candidate found
      exact ⟨traversed, mem_foldl_keepFirst _ member, same, early⟩
    · have seen := (mem_seenAt yields begins explored.frontier).mpr ⟨u, near, found⟩
      obtain ⟨traversed, member, same⟩ := (keys (edgeKey candidate.edge)).mpr (.inr ⟨_, mem_map_of_mem seen, rfl⟩)
      refine ⟨traversed, member, same, ?_⟩
      rcases known traversed member with old | ⟨_, _, _, _, rfl⟩
      · obtain ⟨e, early, _, _, _, _, rfl⟩ := explored.sound traversed old
        exact Nat.succ_le_succ early.le
      · exact le_rfl

theorem Explored.beyond (explored : Explored tables reader edges direction relations start depth [] state)
    {later : Nat} (le : depth ≤ later) : Explored tables reader edges direction relations start later [] state := by
  have before : ∀ {d : Nat} {v : Text}, Near tables reader edges direction relations start d v → d < depth := by
    intro d v near
    by_contra beyond
    obtain ⟨u, level⟩ := near.level_filled (Nat.le_of_not_lt beyond)
    exact absurd ((explored.frontier u).mpr level) not_mem_nil
  constructor
  · intro v
    rw [explored.visited]
    apply or_congr_right
    constructor
    · rintro ⟨d, less, found⟩
      exact ⟨d, less.trans_le le, found⟩
    · rintro ⟨d, _, u, near, leads⟩
      exact ⟨d, before near, u, near, leads⟩
  · exact explored.passable
  · intro v
    constructor
    · exact fun none => absurd none not_mem_nil
    · exact fun near => absurd (before near) (Nat.not_lt.mpr le)
  · intro node
    rw [explored.nodes]
    constructor
    · rintro ⟨d, less, found⟩
      exact ⟨d, less.trans_le le, found⟩
    · rintro ⟨d, _, v, near, found⟩
      exact ⟨d, (Nat.lt_succ_self d).trans (before near), v, near, found⟩
  · exact explored.unique
  · exact explored.keyed
  · exact explored.once
  · intro traversed member
    obtain ⟨d, less, found⟩ := explored.sound traversed member
    exact ⟨d, less.trans_le le, found⟩
  · intro d _ u near
    exact explored.complete d (before near) u near

/-- What the loop returns is explored, and it returns where it meets no other context. -/
theorem levels_explored (yields : Yields tables edges reader) (begins : Parses tables reader start) (left : Nat) (explored : Explored tables reader edges direction relations start depth frontier state) :
    ((∃ after, levels tables reader direction relations left depth frontier state = .ok after) ↔
      ∀ d, depth ≤ d → d < depth + left → ∀ v, LeadsFrom tables reader edges direction relations start d v → Passable tables reader v) ∧
    ∀ after, levels tables reader direction relations left depth frontier state = .ok after →
      ∃ last, Explored tables reader edges direction relations start (depth + left) last after := by
  induction left generalizing depth frontier state with
  | zero =>
    refine ⟨⟨fun _ d from_ less => absurd from_ (by omega), fun _ => ⟨state, rfl⟩⟩, ?_⟩
    intro after done
    cases done
    exact ⟨frontier, explored⟩
  | succ left ih =>
    have expanded := fun after => @expand_level _ _ _ _ _ _ _ yields begins _ _ _ after explored
    unfold levels
    cases done : (sortedBy codes frontier).foldlM (expand tables reader direction relations (depth + 1)) { state with nextFrontier := [] } with
    | error error =>
      have refused : ¬∀ v, LeadsFrom tables reader edges direction relations start depth v → Passable tables reader v := by
        intro every
        have ok := (expanded _).mpr ⟨every, rfl⟩
        rw [done] at ok
        cases ok
      refine ⟨⟨fun ⟨_, returned⟩ => (nomatch returned), fun every => absurd (every depth le_rfl (by omega)) refused⟩, ?_⟩
      exact fun _ returned => nomatch returned
    | ok middle =>
      have passable := ((expanded middle).mp done).1
      have level := explored.level yields begins done
      dsimp only [bind, Except.bind]
      split
      · next empty =>
        rw [empty] at level
        have nothing : ∀ d, depth < d → ∀ v, ¬LeadsFrom tables reader edges direction relations start d v := by
          rintro d more v ⟨u, near, _⟩
          exact absurd (((level.beyond more).frontier u).mpr near) not_mem_nil
        refine ⟨⟨fun _ d from_ _ v leads => ?_, fun _ => ⟨middle, rfl⟩⟩, ?_⟩
        · rcases Nat.eq_or_lt_of_le from_ with rfl | more
          · exact passable v leads
          · exact absurd leads (nothing d more v)
        · intro after same
          cases same
          exact ⟨[], level.beyond (by omega)⟩
      · obtain ⟨returns, later⟩ := ih level
        rw [Nat.add_right_comm, Nat.add_assoc] at returns later
        refine ⟨returns.trans ⟨fun every d from_ less v leads => ?_, fun every d from_ less => every d (by omega) less⟩, later⟩
        rcases Nat.eq_or_lt_of_le from_ with rfl | more
        · exact passable v leads
        · exact every d more less v leads

/-! Other contexts. -/

def Foreign (tables : Tables) (reader : ProjectionReader δ) (text : Text) : Prop :=
  ∃ uri, parseDurableReference tables text = .ok (.workctx uri) ∧ uri.contextId ≠ reader.contextId

theorem entityType_of_parse {text : Text} {uri : WorkctxUri} (read : parseDurableReference tables text = .ok (.workctx uri)) :
    checkEntityType uri.entityType = .ok () := by
  obtain ⟨_, rest⟩ := require_bind_ok.mp read
  obtain ⟨_, rest⟩ := require_bind_ok.mp rest
  obtain ⟨_, rest⟩ := require_bind_ok.mp rest
  obtain ⟨parsed, _, rest⟩ := bind_ok.mp rest
  obtain ⟨_, rest⟩ := require_bind_ok.mp rest
  split at rest
  · obtain ⟨own, valid, rest⟩ := bind_ok.mp rest
    obtain ⟨_, _, valid⟩ := bind_ok.mp valid
    obtain ⟨_, known, valid⟩ := bind_ok.mp valid
    obtain ⟨_, _, valid⟩ := bind_ok.mp valid
    obtain ⟨_, valid⟩ := require_bind_ok.mp valid
    rw [← DurableReference.workctx.inj (Except.ok.inj rest), ← Except.ok.inj valid]
    exact known
  · split at rest
    · obtain ⟨_, _, rest⟩ := bind_ok.mp rest
      cases rest
    · split at rest
      · obtain ⟨_, _, rest⟩ := bind_ok.mp rest
        cases rest
      · obtain ⟨_, rest⟩ := require_bind_ok.mp rest
        cases rest

theorem resolves_of_parses (yields : Yields tables edges reader) {text : Text} (parses : Parses tables reader text) :
    resolves tables reader text = true := by
  obtain ⟨reference, read, own⟩ := parses
  rw [resolves_iff]
  have parsed : ofValue (parseReference tables (.text text)) = .ok reference := ofValue_ok.mpr read
  cases reference with
  | workctx uri =>
    obtain ⟨record, found⟩ := yields.documents uri own
    use ⟨if record.isSome then .resolved else .notFound, .workctx uri, record⟩
    refine bind_ok.mpr ⟨_, parsed, bind_ok.mpr ⟨(), ofValue_ok.mpr (entityType_of_parse read), ?_⟩⟩
    have native : uri.contextId = reader.contextId := own
    rw [if_neg (not_not.mpr native), found]
    rfl
  | artifact artifact => exact ⟨_, bind_ok.mpr ⟨_, parsed, rfl⟩⟩
  | repo repo => exact ⟨_, bind_ok.mpr ⟨_, parsed, rfl⟩⟩
  | external value => exact own.elim

theorem passable_iff (yields : Yields tables edges reader) {text : Text} : Passable tables reader text ↔ ¬Foreign tables reader text := by
  constructor
  · rintro passable ⟨uri, read, other⟩
    have refused : resolve tables reader (.text text) = .error (.boundary "Reference belongs to another context") := by
      unfold resolve
      rw [parseReference_text, read]
      dsimp only [ofValue, Except.mapError, bind, Except.bind]
      rw [entityType_of_parse read]
      dsimp only
      rw [if_pos other]
    obtain ⟨cause, none⟩ := passable _ refused
    cases none
  · intro native error refused
    cases read : parseDurableReference tables text with
    | error cause =>
      unfold resolve at refused
      rw [parseReference_text, read] at refused
      exact ⟨cause, (Except.error.inj refused).symm⟩
    | ok reference =>
      by_cases own : InContext reader reference
      · obtain ⟨resolution, done⟩ := resolves_iff.mp (resolves_of_parses yields ⟨reference, read, own⟩)
        rw [done] at refused
        cases refused
      · cases reference with
        | workctx uri => exact absurd ⟨uri, read, own⟩ native
        | artifact artifact => exact absurd trivial own
        | repo repo => exact absurd trivial own
        | external value =>
          unfold resolve at refused
          rw [parseReference_text, read] at refused
          exact ⟨_, (Except.error.inj refused).symm⟩

end

end Workctx.Projection
