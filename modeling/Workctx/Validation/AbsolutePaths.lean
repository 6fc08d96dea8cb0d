import Mathlib.Data.Fintype.Basic
import Mathlib.Data.Fintype.Card
import Mathlib.Data.List.DropRight
import Workctx.Domain.Checks
import Workctx.Search.Sorted
import Workctx.Text.Newlines

/-! The scan of a structured document for the absolute paths of a machine: its lines first, then the graph of its
nodes, where the pointer of a locator takes back what was found on its lines. -/

namespace Workctx.Validation.AbsolutePaths
open Workctx.Domain Workctx.Search Workctx.Text List

/-! The lines of a text. -/

def isBare (c : Char) : Bool := !(c == '/' || isSpace c)

/-- `_is_absolute_machine_path` -/
def isAbsoluteMachinePath : List Char → Bool
  | '/' :: '/' :: '/' :: rest => (rest.dropWhile (· == '/')).head?.any isBare
  | '/' :: '/' :: rest => !(rest.takeWhile isBare).isEmpty && ['/'].isPrefixOf (rest.dropWhile isBare) &&
      ((rest.dropWhile isBare).drop 1).head?.any isBare
  | '/' :: _ => true
  | '\\' :: _ => true
  | drive :: ':' :: slash :: _ => (drive.isUpper || drive.isLower) && (slash == '\\' || slash == '/')
  | _ => false

def isQuotation (c : Char) : Bool := c == Char.ofNat 96 || c == '\'' || c == '"'

/-- What is looked at of a line: neither blanks nor quotation marks around it -/
def isAbsoluteLine (line : List Char) : Bool :=
  isAbsoluteMachinePath (((strip line).dropWhile isQuotation).rdropWhile isQuotation)

def absolutePathLineNumbers (content : List Char) : List Nat :=
  ((splitlines content).zipIdx 1).filterMap fun line => if isAbsoluteLine line.1 then some line.2 else none

def isFence (line : List Char) : Bool := line.rdropWhile (fun c => c == '\r' || c == '\n') == ['-', '-', '-']

/-- `_markdown_frontmatter_source`, with the number of lines above it -/
def markdownFrontmatterSource (content : List Char) : Option (List Char × Nat) :=
  match cutLines endsLine content with
  | [] => none
  | first :: others =>
    if isFence first then (others.findIdx? isFence).map fun index => ((others.take index).flatten, 1) else none

def structuredSource (content : List Char) (markdown : Bool) : Option (List Char × Nat) :=
  if markdown then markdownFrontmatterSource content else some (content, 0)

/-! The graph of the nodes, which are told apart by identity; an alias is the node of its anchor. -/

inductive Node (ι : Type) where
  | scalar (value : String)
  | sequence (items : List ι)
  | mapping (entries : List (ι × ι))

/-- What `yaml.compose` gives; the marks of a node are the numbers of its first line and of the line of its end. -/
structure NodeGraph where
  size : Nat
  root : Fin size
  node : Fin size → Node (Fin size)
  marks : Fin size → Nat × Nat

namespace NodeGraph
variable (graph : NodeGraph) (kind : String) (offset : Nat)

def scalarValue (id : Fin graph.size) : Option String :=
  match graph.node id with
  | .scalar value => some value
  | _ => none

def keyText (id : Fin graph.size) : String := (graph.scalarValue id).getD ""

/-- `_yaml_node_line_range` -/
def lineRange (id : Fin graph.size) : Nat × Nat :=
  let start := (graph.marks id).1 + offset + 1
  (start, max start ((graph.marks id).2 + offset))

/-- The line is one of the node's. -/
def onLine (id : Fin graph.size) (line : Nat) : Bool := (graph.lineRange offset id).1 ≤ line && line ≤ (graph.lineRange offset id).2

/-- A scalar that has an absolute path among its lines -/
def isAbsolute (id : Fin graph.size) : Bool := (graph.scalarValue id).any fun value => (splitlines value.toList).any isAbsoluteLine

def isJsonPointer (entries : List (Fin graph.size × Fin graph.size)) : Bool :=
  entries.any fun entry => graph.scalarValue entry.1 == some "type" && graph.scalarValue entry.2 == some "json_pointer"

end NodeGraph

/-- `_is_json_pointer_locator_path` -/
def isJsonPointerLocatorPath (kind : String) (path : List String) : Bool :=
  if kind = "observation" then path == ["source", "locator", "pointer"]
  else if kind = "entity" then path == ["observations", "*", "source", "locator", "pointer"]
  else false

namespace NodeGraph
variable (graph : NodeGraph) (kind : String) (offset : Nat)

def isExempted (path : List String) (entries : List (Fin graph.size × Fin graph.size)) (entry : Fin graph.size × Fin graph.size) : Bool :=
  graph.isJsonPointer entries && graph.keyText entry.1 == "pointer" && isJsonPointerLocatorPath kind (path ++ [graph.keyText entry.1])

/-- What the walk comes to that changes the lines -/
inductive Visit (ι : Type) where
  | scalar (id : ι)
  | exempted (id : ι)

def Visit.scalarOf {ι : Type} : Visit ι → Option ι
  | .scalar id => some id
  | .exempted _ => none

/-- A scalar adds its first line where none of its lines is there yet; an exempted pointer takes back its lines. -/
def scan (lines : List Nat) : Visit (Fin graph.size) → List Nat
  | .scalar id =>
    if graph.isAbsolute id && !lines.any (graph.onLine offset id) then (graph.lineRange offset id).1 :: lines else lines
  | .exempted id => lines.filter fun line => !graph.onLine offset id line

section
variable {σ : Type} (act : σ → Visit (Fin graph.size) → σ)

def openSequence (path : List String) (items : List (Fin graph.size)) (pending : List (Fin graph.size × List String)) :
    List (Fin graph.size × List String) := items.map (fun item => (item, path ++ ["*"])) ++ pending

/-- The loop over the entries of a mapping, from the last one on: what is pending afterwards, and the state. -/
def openMapping (path : List String) (entries : List (Fin graph.size × Fin graph.size)) (pending : List (Fin graph.size × List String))
    (state : σ) : List (Fin graph.size × List String) × σ :=
  entries.foldr (fun entry opened =>
    if graph.isExempted kind path entries entry then (opened.1, act opened.2 (.exempted entry.2))
    else ((entry.2, path ++ [graph.keyText entry.1]) :: opened.1, opened.2)) (pending, state)

variable {graph} in
theorem card_insert_compl {visited : Finset (Fin graph.size)} {id : Fin graph.size} (new : id ∉ visited) :
    (insert id visited)ᶜ.card < visitedᶜ.card := by
  apply Finset.card_lt_card
  rw [Finset.ssubset_iff_of_subset (Finset.compl_subset_compl.mpr (Finset.subset_insert id visited))]
  exact ⟨id, by simpa using new, by simp⟩

/-- The loop over the pending nodes, with the next one first -/
def walk (visited : Finset (Fin graph.size)) (pending : List (Fin graph.size × List String)) (state : σ) : σ :=
  match pending with
  | [] => state
  | (id, path) :: pending =>
    if _seen : id ∈ visited then walk visited pending state
    else match graph.node id with
      | .scalar _ => walk (insert id visited) pending (act state (.scalar id))
      | .sequence items => walk (insert id visited) (graph.openSequence path items pending) state
      | .mapping entries =>
        let opened := graph.openMapping kind act path entries pending state
        walk (insert id visited) opened.1 opened.2
termination_by (visitedᶜ.card, pending.length)
decreasing_by
  all_goals first
    | exact .right _ (Nat.lt_succ_self _)
    | exact .left _ _ (card_insert_compl _seen)

end

/-- The scalars and the exempted pointers in the order in which the walk comes to them -/
def documentOrder : List (Visit (Fin graph.size)) := graph.walk kind (fun order visit => order ++ [visit]) ∅ [(graph.root, [])] []

end NodeGraph

/-- `_structured_absolute_path_line_numbers`; `compose` is `yaml.compose`, none where it raises or finds no document. -/
def structuredAbsolutePathLineNumbers (compose : List Char → Option NodeGraph) (content : List Char) (kind : String) (markdown : Bool) :
    List Nat :=
  let lines := absolutePathLineNumbers content
  match structuredSource content markdown with
  | none => sortedSet lines
  | some (source, offset) =>
    match compose source with
    | none => sortedSet lines
    | some graph => sortedSet (graph.walk kind (graph.scan offset) ∅ [(graph.root, [])] lines)

/-! The walk, node by node. -/

namespace NodeGraph
section
variable {graph : NodeGraph} {kind : String} {σ : Type} {act : σ → Visit (Fin graph.size) → σ} {visited : Finset (Fin graph.size)}
  {pending : List (Fin graph.size × List String)} {state : σ} {id : Fin graph.size} {path : List String}

theorem walk_nil : graph.walk kind act visited [] state = state := by rw [walk]

theorem walk_seen (seen : id ∈ visited) :
    graph.walk kind act visited ((id, path) :: pending) state = graph.walk kind act visited pending state := by
  rw [walk, dif_pos seen]

theorem walk_scalar {value : String} (new : id ∉ visited) (held : graph.node id = .scalar value) :
    graph.walk kind act visited ((id, path) :: pending) state =
      graph.walk kind act (insert id visited) pending (act state (.scalar id)) := by
  rw [walk, dif_neg new, held]

theorem walk_sequence {items : List (Fin graph.size)} (new : id ∉ visited) (held : graph.node id = .sequence items) :
    graph.walk kind act visited ((id, path) :: pending) state =
      graph.walk kind act (insert id visited) (graph.openSequence path items pending) state := by
  rw [walk, dif_neg new, held]

theorem walk_mapping {entries : List (Fin graph.size × Fin graph.size)} (new : id ∉ visited) (held : graph.node id = .mapping entries) :
    graph.walk kind act visited ((id, path) :: pending) state = graph.walk kind act (insert id visited)
      (graph.openMapping kind act path entries pending state).1 (graph.openMapping kind act path entries pending state).2 := by
  rw [walk, dif_neg new, held]

theorem openMapping_map {τ : Type} {next : τ → Visit (Fin graph.size) → τ} (image : σ → τ)
    (step : ∀ state visit, image (act state visit) = next (image state) visit) (entries : List (Fin graph.size × Fin graph.size)) :
    graph.openMapping kind next path entries pending (image state) =
      ((graph.openMapping kind act path entries pending state).1, image (graph.openMapping kind act path entries pending state).2) := by
  unfold openMapping
  -- the entries that are left are a part of those that are asked for the type of the locator
  generalize graph.isExempted kind path entries = exempted
  induction entries with
  | nil => rfl
  | cons entry rest ih =>
    rw [foldr_cons, foldr_cons, ih]
    split
    · rw [step]
    · rfl

theorem walk_map {τ : Type} {next : τ → Visit (Fin graph.size) → τ} (image : σ → τ)
    (step : ∀ state visit, image (act state visit) = next (image state) visit) :
    image (graph.walk kind act visited pending state) = graph.walk kind next visited pending (image state) := by
  induction visited, pending, state using walk.induct graph kind act with
  | case1 visited state => rw [walk_nil, walk_nil]
  | case2 visited state id path pending seen ih => rw [walk_seen seen, walk_seen seen, ih]
  | case3 visited state id path pending new value held ih => rw [walk_scalar new held, walk_scalar new held, ih, step]
  | case4 visited state id path pending new items held ih => rw [walk_sequence new held, walk_sequence new held, ih]
  | case5 visited state id path pending new entries held opened ih =>
    rw [walk_mapping new held, walk_mapping new held, ih, openMapping_map image step]

theorem walk_eq_foldl (visits : List (Visit (Fin graph.size))) :
    graph.walk kind act visited pending (visits.foldl act state) =
      (graph.walk kind (fun order visit => order ++ [visit]) visited pending visits).foldl act state :=
  (walk_map (List.foldl act state) fun order visit => foldl_concat act state visit order).symm

theorem openMapping_induct {keeps : σ → Prop} (exempted : ∀ id state, keeps state → keeps (act state (.exempted id)))
    (entries : List (Fin graph.size × Fin graph.size)) (start : keeps state) :
    keeps (graph.openMapping kind act path entries pending state).2 := by
  unfold openMapping
  generalize graph.isExempted kind path entries = isExempted
  induction entries with
  | nil => exact start
  | cons entry rest ih =>
    rw [foldr_cons]
    split
    · exact exempted entry.2 _ ih
    · exact ih

theorem walk_induct {keeps : Finset (Fin graph.size) → σ → Prop}
    (opens : ∀ visited id state, keeps visited state → keeps (insert id visited) state)
    (scalar : ∀ visited id state, id ∉ visited → keeps visited state → keeps (insert id visited) (act state (.scalar id)))
    (exempted : ∀ visited id state, keeps visited state → keeps visited (act state (.exempted id))) (start : keeps visited state) :
    ∃ after, keeps after (graph.walk kind act visited pending state) := by
  induction visited, pending, state using walk.induct graph kind act with
  | case1 visited state =>
    rw [walk_nil]
    exact ⟨visited, start⟩
  | case2 visited state id path pending seen ih =>
    rw [walk_seen seen]
    exact ih start
  | case3 visited state id path pending new value held ih =>
    rw [walk_scalar new held]
    exact ih (scalar visited id state new start)
  | case4 visited state id path pending new items held ih =>
    rw [walk_sequence new held]
    exact ih (opens visited id state start)
  | case5 visited state id path pending new entries held opened ih =>
    rw [walk_mapping new held]
    exact ih (opens visited id _ (openMapping_induct (exempted visited) entries start))

end

variable {graph : NodeGraph} {kind : String} {offset : Nat}

theorem nodup_documentOrder : ((graph.documentOrder kind).filterMap Visit.scalarOf).Nodup := by
  let keeps (visited : Finset (Fin graph.size)) (order : List (Visit (Fin graph.size))) : Prop :=
    (order.filterMap Visit.scalarOf).Nodup ∧ ∀ id ∈ order.filterMap Visit.scalarOf, id ∈ visited
  have kept : ∃ visited, keeps visited (graph.documentOrder kind) := by
    apply walk_induct
    · intro visited id order kept
      exact ⟨kept.1, fun other member => Finset.mem_insert_of_mem (kept.2 other member)⟩
    · intro visited id order new kept
      simp only [keeps, filterMap_append, filterMap_cons, Visit.scalarOf, filterMap_nil]
      constructor
      · rw [← concat_eq_append]
        exact kept.1.concat fun member => new (kept.2 id member)
      · intro other member
        rcases mem_append.mp member with earlier | same
        · exact Finset.mem_insert_of_mem (kept.2 other earlier)
        · rw [mem_singleton.mp same]
          exact Finset.mem_insert_self id visited
    · intro visited id order kept
      simp only [keeps, filterMap_append, filterMap_cons, Visit.scalarOf, filterMap_nil, append_nil]
      exact kept
    · exact ⟨nodup_nil, by simp⟩
  exact kept.elim fun _ kept => kept.1

theorem once_documentOrder {front back : List (Visit (Fin graph.size))} {id : Fin graph.size}
    (order : graph.documentOrder kind = front ++ .scalar id :: back) : .scalar id ∉ front ∧ .scalar id ∉ back := by
  have nodup : ((graph.documentOrder kind).filterMap Visit.scalarOf).Nodup := nodup_documentOrder
  have here : Visit.scalarOf (.scalar id) = some id := rfl
  rw [order, filterMap_append, filterMap_cons_some here, nodup_middle, nodup_cons, mem_append, not_or] at nodup
  constructor
  · exact fun member => nodup.1.1 (mem_filterMap.mpr ⟨_, member, rfl⟩)
  · exact fun member => nodup.1.2 (mem_filterMap.mpr ⟨_, member, rfl⟩)

/-! The lines along the order of the document. -/

section
variable {lines : List Nat} {id : Fin graph.size} {visits : List (Visit (Fin graph.size))} {line : Nat}

theorem mem_scan_scalar (found : line ∈ lines) (id : Fin graph.size) : line ∈ graph.scan offset lines (.scalar id) := by
  unfold scan
  dsimp only
  split
  · exact mem_cons_of_mem _ found
  · exact found

theorem mem_scan_exempted : line ∈ graph.scan offset lines (.exempted id) ↔ line ∈ lines ∧ graph.onLine offset id line = false := by
  rw [scan, mem_filter, Bool.not_eq_true']

theorem mem_foldl_scan (found : line ∈ lines) (kept : ∀ pointer, .exempted pointer ∈ visits → graph.onLine offset pointer line = false) :
    line ∈ visits.foldl (graph.scan offset) lines := by
  induction visits generalizing lines with
  | nil => exact found
  | cons visit rest ih =>
    rw [foldl_cons]
    apply ih _ fun pointer member => kept pointer (mem_cons_of_mem visit member)
    cases visit with
    | scalar id => exact mem_scan_scalar found id
    | exempted pointer => exact mem_scan_exempted.mpr ⟨found, kept pointer mem_cons_self⟩

theorem onLine_start (id : Fin graph.size) : graph.onLine offset id (graph.lineRange offset id).1 = true := by
  simp [onLine, lineRange]

theorem scan_scalar (absolute : graph.isAbsolute id = true) :
    ∃ line ∈ graph.scan offset lines (.scalar id), graph.onLine offset id line = true := by
  unfold scan
  dsimp only
  rw [absolute, Bool.true_and]
  split
  · exact ⟨_, mem_cons_self, onLine_start id⟩
  · next there =>
    rw [Bool.not_eq_true', Bool.not_eq_false, any_eq_true] at there
    exact there

end

end NodeGraph

/-! What is reported. -/

namespace NodeGraph
variable (graph : NodeGraph) (kind : String) (offset : Nat)

/-- The places of a node: the path of keys to it, none inside a key. -/
inductive Place : Option (List String) → Fin graph.size → Prop where
  | root : Place (some []) graph.root
  | item {path : Option (List String)} {id item : Fin graph.size} {items : List (Fin graph.size)} :
    Place path id → graph.node id = .sequence items → item ∈ items → Place (path.map (· ++ ["*"])) item
  | key {path : Option (List String)} {id : Fin graph.size} {entries : List (Fin graph.size × Fin graph.size)}
    {entry : Fin graph.size × Fin graph.size} : Place path id → graph.node id = .mapping entries → entry ∈ entries → Place none entry.1
  | value {path : Option (List String)} {id : Fin graph.size} {entries : List (Fin graph.size × Fin graph.size)}
    {entry : Fin graph.size × Fin graph.size} : Place path id → graph.node id = .mapping entries → entry ∈ entries →
    Place (path.map (· ++ [graph.keyText entry.1])) entry.2

/-- The node is somewhere else than at the pointer of a locator. -/
inductive Elsewhere : Fin graph.size → Prop where
  | root : Elsewhere graph.root
  | item {path : Option (List String)} {id item : Fin graph.size} {items : List (Fin graph.size)} :
    graph.Place path id → graph.node id = .sequence items → item ∈ items → Elsewhere item
  | key {path : Option (List String)} {id : Fin graph.size} {entries : List (Fin graph.size × Fin graph.size)}
    {entry : Fin graph.size × Fin graph.size} : graph.Place path id → graph.node id = .mapping entries → entry ∈ entries → Elsewhere entry.1
  | value {path : Option (List String)} {id : Fin graph.size} {entries : List (Fin graph.size × Fin graph.size)}
    {entry : Fin graph.size × Fin graph.size} : graph.Place path id → graph.node id = .mapping entries → entry ∈ entries →
    (∀ keys, path = some keys → graph.isExempted kind keys entries entry = false) → Elsewhere entry.2

/-- The scalars that are to be reported -/
def Leaks (id : Fin graph.size) : Prop := graph.isAbsolute id = true ∧ graph.Elsewhere kind id

/-- No such scalar is missed. -/
def MissesNothing (lines : List Nat) : Prop := ∀ id, graph.Leaks kind id → ∃ line ∈ lines, graph.onLine offset id line = true

/-- The walk comes to the scalar, and no pointer that is exempted afterwards has one of its lines. -/
def Kept (id : Fin graph.size) : Prop :=
  ∃ front back, graph.documentOrder kind = front ++ .scalar id :: back ∧
    ∀ pointer line, .exempted pointer ∈ back → graph.onLine offset id line = true → graph.onLine offset pointer line = false

/-- As before, for the first line alone -/
def StartKept (id : Fin graph.size) : Prop :=
  ∃ front back, graph.documentOrder kind = front ++ .scalar id :: back ∧
    ∀ pointer, .exempted pointer ∈ back → graph.onLine offset pointer (graph.lineRange offset id).1 = false

/-- Nothing else is found on the lines of the scalar. -/
def Alone (lines : List Nat) (id : Fin graph.size) : Prop :=
  (∀ line ∈ lines, graph.onLine offset id line = false) ∧
  ∀ other, graph.isAbsolute other = true → other ≠ id → graph.onLine offset id (graph.lineRange offset other).1 = false

section
variable {graph kind offset} {lines : List Nat} {id : Fin graph.size}

theorem Kept.found (kept : graph.Kept kind offset id) (absolute : graph.isAbsolute id = true) :
    ∃ line ∈ (graph.documentOrder kind).foldl (graph.scan offset) lines, graph.onLine offset id line = true := by
  obtain ⟨front, back, order, clear⟩ := kept
  rw [order, foldl_append, foldl_cons]
  have here : ∃ line ∈ graph.scan offset (front.foldl (graph.scan offset) lines) (.scalar id), graph.onLine offset id line = true :=
    scan_scalar absolute
  obtain ⟨line, found, on⟩ := here
  exact ⟨line, mem_foldl_scan found fun pointer member => clear pointer line member on, on⟩

/-- What is left on the lines of a scalar was there before, unless the walk comes to it. -/
theorem mem_of_foldl_scan {visits : List (Visit (Fin graph.size))} {line : Nat} (apart : .scalar id ∉ visits)
    (others : ∀ other, graph.isAbsolute other = true → other ≠ id → graph.onLine offset id (graph.lineRange offset other).1 = false)
    (on : graph.onLine offset id line = true) (left : line ∈ visits.foldl (graph.scan offset) lines) :
    line ∈ lines ∧ ∀ pointer, .exempted pointer ∈ visits → graph.onLine offset pointer line = false := by
  induction visits generalizing lines with
  | nil => exact ⟨left, by simp⟩
  | cons visit rest ih =>
    obtain ⟨there, clear⟩ := ih (fun member => apart (mem_cons_of_mem visit member)) left
    cases visit with
    | scalar other =>
      have differ : other ≠ id := fun same => apart (same ▸ mem_cons_self)
      constructor
      · unfold scan at there
        dsimp only at there
        split at there
        · next added =>
          rcases mem_cons.mp there with start | there
          · rw [start, others other (Bool.and_eq_true_iff.mp added).1 differ] at on
            cases on
          · exact there
        · exact there
      · intro pointer member
        exact clear pointer ((mem_cons.mp member).resolve_left nofun)
    | exempted pointer =>
      obtain ⟨there, off⟩ := mem_scan_exempted.mp there
      refine ⟨there, fun other member => ?_⟩
      rcases mem_cons.mp member with same | member
      · rw [Visit.exempted.inj same]
        exact off
      · exact clear other member

theorem Alone.found_iff (alone : graph.Alone offset lines id) (absolute : graph.isAbsolute id = true) :
    (∃ line ∈ (graph.documentOrder kind).foldl (graph.scan offset) lines, graph.onLine offset id line = true) ↔
      graph.StartKept kind offset id := by
  have before : ∀ visits : List (Visit (Fin graph.size)), .scalar id ∉ visits →
      ∀ line ∈ visits.foldl (graph.scan offset) lines, graph.onLine offset id line = false := by
    intro visits apart line left
    by_contra on
    rw [Bool.not_eq_false] at on
    have none := alone.1 line (mem_of_foldl_scan apart alone.2 on left).1
    rw [on] at none
    cases none
  have added : ∀ visits : List (Visit (Fin graph.size)), .scalar id ∉ visits →
      graph.scan offset (visits.foldl (graph.scan offset) lines) (.scalar id) =
        (graph.lineRange offset id).1 :: visits.foldl (graph.scan offset) lines := by
    intro visits apart
    have none : (visits.foldl (graph.scan offset) lines).any (graph.onLine offset id) = false := by
      rw [any_eq_false]
      intro line left
      rw [before visits apart line left]
      decide
    rw [scan, absolute, none]
    rfl
  constructor
  · rintro ⟨line, left, on⟩
    by_cases met : .scalar id ∈ graph.documentOrder kind
    · obtain ⟨front, back, order⟩ := append_of_mem met
      have once := once_documentOrder order
      rw [order, foldl_append, foldl_cons] at left
      obtain ⟨there, clear⟩ := mem_of_foldl_scan once.2 alone.2 on left
      rw [added front once.1] at there
      have start : line = (graph.lineRange offset id).1 := by
        refine (mem_cons.mp there).resolve_right fun earlier => ?_
        rw [before front once.1 line earlier] at on
        cases on
      subst start
      exact ⟨front, back, order, clear⟩
    · rw [before _ met line left] at on
      cases on
  · rintro ⟨front, back, order, clear⟩
    rw [order, foldl_append, foldl_cons]
    have start : (graph.lineRange offset id).1 ∈ graph.scan offset (front.foldl (graph.scan offset) lines) (.scalar id) := by
      rw [added front (once_documentOrder order).1]
      exact mem_cons_self
    exact ⟨_, mem_foldl_scan start clear, onLine_start id⟩

end
end NodeGraph

section
variable {compose : List Char → Option NodeGraph} {content source : List Char} {kind : String} {markdown : Bool} {offset : Nat}
  {graph : NodeGraph}

theorem mem_structured (structured : structuredSource content markdown = some (source, offset)) (composed : compose source = some graph)
    {line : Nat} : line ∈ structuredAbsolutePathLineNumbers compose content kind markdown ↔
      line ∈ (graph.documentOrder kind).foldl (graph.scan offset) (absolutePathLineNumbers content) := by
  unfold structuredAbsolutePathLineNumbers
  simp only [structured, composed]
  rw [mem_sortedSet]
  have walked : graph.walk kind (graph.scan offset) ∅ [(graph.root, [])] (absolutePathLineNumbers content) =
      (graph.documentOrder kind).foldl (graph.scan offset) (absolutePathLineNumbers content) := NodeGraph.walk_eq_foldl []
  rw [walked]

/-- The scan misses no scalar that the walk comes to and that shares no line with a pointer exempted afterwards; where no two findings
share a line, it misses nothing exactly where each scalar keeps its first line. -/
theorem absolutePaths_missNothing (structured : structuredSource content markdown = some (source, offset))
    (composed : compose source = some graph) :
    ((∀ id, graph.Leaks kind id → graph.Kept kind offset id) →
      graph.MissesNothing kind offset (structuredAbsolutePathLineNumbers compose content kind markdown)) ∧
    ((∀ id, graph.Leaks kind id → graph.Alone offset (absolutePathLineNumbers content) id) →
      (graph.MissesNothing kind offset (structuredAbsolutePathLineNumbers compose content kind markdown) ↔
        ∀ id, graph.Leaks kind id → graph.StartKept kind offset id)) := by
  constructor
  · intro kept id leaks
    obtain ⟨line, found, on⟩ := (kept id leaks).found leaks.1
    exact ⟨line, (mem_structured structured composed).mpr found, on⟩
  · intro alone
    unfold NodeGraph.MissesNothing
    simp only [mem_structured structured composed]
    exact forall₂_congr fun id leaks => (alone id leaks).found_iff leaks.1

end

/-! An observation whose statement is a path, above the pointer of its locator: in flow style on one line, and in block style. -/

def observationNodes (pointer : String) : List (Node (Fin 11)) :=
  [.mapping [(1, 2), (3, 4)], .scalar "statement", .scalar "/home/u/notes", .scalar "source", .mapping [(5, 6)], .scalar "locator",
    .mapping [(7, 8), (9, 10)], .scalar "type", .scalar "json_pointer", .scalar "pointer", .scalar pointer]

def observationGraph (pointer : String) (marks : List (Nat × Nat)) : NodeGraph where
  size := 11
  root := 0
  node id := (observationNodes pointer).getD id (.scalar "")
  marks id := marks.getD id (0, 0)

theorem observation_order (pointer : String) (marks : List (Nat × Nat)) : (observationGraph pointer marks).documentOrder "observation" =
    [.scalar (2 : Fin 11), .exempted (10 : Fin 11), .scalar (8 : Fin 11)] := by
  unfold NodeGraph.documentOrder
  have statement : (2 : Fin 11) ∉ (insert 0 ∅ : Finset (Fin 11)) := by decide
  have source : (4 : Fin 11) ∉ (insert 2 (insert 0 ∅) : Finset (Fin 11)) := by decide
  have locator : (6 : Fin 11) ∉ (insert 4 (insert 2 (insert 0 ∅)) : Finset (Fin 11)) := by decide
  have type : (8 : Fin 11) ∉ (insert 6 (insert 4 (insert 2 (insert 0 ∅))) : Finset (Fin 11)) := by decide
  apply Eq.trans (NodeGraph.walk_mapping (Finset.notMem_empty _) rfl)
  apply Eq.trans (NodeGraph.walk_scalar statement rfl)
  apply Eq.trans (NodeGraph.walk_mapping source rfl)
  apply Eq.trans (NodeGraph.walk_mapping locator rfl)
  apply Eq.trans (NodeGraph.walk_scalar type rfl)
  exact NodeGraph.walk_nil

def flowText : List Char := "{statement: /home/u/notes, source: {locator: {type: json_pointer, pointer: /x}}}".toList

def flowGraph : NodeGraph := observationGraph "/x" []

/-- The pointer takes back the line of the statement. -/
theorem absolutePaths_flow : structuredSource flowText false = some (flowText, 0) ∧ flowGraph.Leaks "observation" (2 : Fin 11) ∧
    structuredAbsolutePathLineNumbers (fun _ => some flowGraph) flowText "observation" false = [] ∧
    ¬ flowGraph.MissesNothing "observation" 0 (structuredAbsolutePathLineNumbers (fun _ => some flowGraph) flowText "observation" false) := by
  have leaks : flowGraph.Leaks "observation" (2 : Fin 11) := by
    constructor
    · decide +kernel
    · apply NodeGraph.Elsewhere.value (NodeGraph.Place.root) (show flowGraph.node flowGraph.root = _ from rfl) List.mem_cons_self
      intro keys _
      rfl
  have none : structuredAbsolutePathLineNumbers (fun _ => some flowGraph) flowText "observation" false = [] := by
    rw [List.eq_nil_iff_forall_not_mem]
    intro line member
    rw [mem_structured rfl rfl, flowGraph, observation_order] at member
    revert member
    have empty : ([.scalar (2 : Fin 11), .exempted (10 : Fin 11), .scalar (8 : Fin 11)] : List (NodeGraph.Visit (Fin flowGraph.size))).foldl
      (flowGraph.scan 0) (absolutePathLineNumbers flowText) = [] := by decide +kernel
    exact fun member => List.not_mem_nil (empty ▸ member)
  refine ⟨rfl, leaks, none, fun complete => ?_⟩
  obtain ⟨line, member, _⟩ := complete _ leaks
  rw [none] at member
  exact List.not_mem_nil member

def blockText : List Char := "statement: /home/u/notes\nsource:\n  locator:\n    type: json_pointer\n    pointer: ''\n".toList

def blockGraph : NodeGraph :=
  observationGraph "" [(0, 5), (0, 0), (0, 0), (1, 1), (2, 5), (2, 2), (3, 5), (3, 3), (3, 3), (4, 4), (4, 4)]

theorem absolutePaths_block : blockGraph.MissesNothing "observation" 0
    (structuredAbsolutePathLineNumbers (fun _ => some blockGraph) blockText "observation" false) := by
  refine (absolutePaths_missNothing rfl rfl).1 fun id leaks => ?_
  have statement : id = (2 : Fin 11) := by
    have only : ∀ id : Fin blockGraph.size, blockGraph.isAbsolute id = true → id.val = 2 := by decide +kernel
    exact Fin.ext (only id leaks.1)
  subst statement
  refine ⟨[], _, observation_order _ _, fun pointer line member on => ?_⟩
  have exempted : pointer = (10 : Fin 11) := by
    rcases List.mem_cons.mp member with same | other
    · exact NodeGraph.Visit.exempted.inj same
    · exact absurd (List.mem_singleton.mp other) nofun
  subst exempted
  -- the statement is on the first line, and the pointer on the fifth
  have first : (decide (1 ≤ line) && decide (line ≤ 1)) = true := on
  have fifth : blockGraph.onLine 0 (10 : Fin 11) line = (decide (5 ≤ line) && decide (line ≤ 5)) := rfl
  rw [fifth, Bool.and_eq_false_iff, decide_eq_false_iff_not]
  rw [Bool.and_eq_true, decide_eq_true_eq, decide_eq_true_eq] at first
  omega

end Workctx.Validation.AbsolutePaths
