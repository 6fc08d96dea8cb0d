import Workctx.Json.Value
import Workctx.Search.Sorted
import Mathlib.Data.String.Basic

/-! Canonical data: what a model writes, with its keys in the order of its fields, or of the alphabet. -/

namespace Workctx.Serialization
open Workctx.Json Workctx.Search List

/-- A Python value as the writer tells them apart; a mapping may have keys that are no strings. -/
inductive Object where
  /-- None, a Boolean, an integer or a string -/
  | native
  | float (finite : Bool)
  | list (items : List Object)
  | tuple (items : List Object)
  | mapping (entries : List (Option String × Object))
  /-- A model, with what `getattr` finds beside its declared fields -/
  | model (declared : List (Option String × Object)) (attributes extras : List (Option String × Object))
  | unordered
  | iterator
  | other

def stringKeys (entries : List (Option String × Object)) : Bool := entries.all fun entry => entry.1.isSome

mutual
/-- `_preflight_free_form`: true where it raises nothing. -/
def preflightFreeForm : Object → Bool
  | .native => true
  | .float finite => finite
  | .list items => preflightFreeForms items
  | .mapping entries => stringKeys entries && preflightFreeEntries entries
  | _ => false

def preflightFreeForms : List Object → Bool
  | [] => true
  | item :: rest => preflightFreeForm item && preflightFreeForms rest

def preflightFreeEntries : List (Option String × Object) → Bool
  | [] => true
  | (_, item) :: rest => preflightFreeForm item && preflightFreeEntries rest
end

mutual
/-- `_preflight_declared`, and `_preflight_model` of a model -/
def preflightDeclared : Object → Bool
  | .model declared _ extras => preflightEntries declared && (stringKeys extras && preflightFreeEntries extras)
  | .mapping entries => stringKeys entries && preflightEntries entries
  | .unordered => false
  | .float finite => finite
  | .list items => preflightItems items
  | .tuple items => preflightItems items
  | .iterator => false
  | .native => true
  | .other => true

def preflightItems : List Object → Bool
  | [] => true
  | item :: rest => preflightDeclared item && preflightItems rest

def preflightEntries : List (Option String × Object) → Bool
  | [] => true
  | (_, item) :: rest => preflightDeclared item && preflightEntries rest
end

/-- The keys of a mapping in the order they are written: the declared ones as declared, the others sorted. -/
def orderedKeys (source : Option Object) (keys : List String) : List String :=
  match source with
  | some (.model declared _ _) =>
    (declared.filterMap Prod.fst).filter (keys.contains ·) ++ sortedBy id (keys.filter fun key => !(declared.filterMap Prod.fst).contains key)
  | _ => sortedBy id keys

def inOrder (keys : List String) (members : List (String × Value)) : List (String × Value) :=
  keys.filterMap fun key => (members.lookup key).map fun item => (key, item)

def memberSource (source : Option Object) (key : String) : Option Object :=
  match source with
  | some (.model declared attributes extras) =>
    declared.lookup (some key) <|> attributes.lookup (some key) <|> extras.lookup (some key)
  | some (.mapping entries) => entries.lookup (some key)
  | _ => none

def itemSources : Option Object → List Object
  | some (.list items) => items
  | some (.tuple items) => items
  | _ => []

mutual
def normalizeSerialized (source : Option Object) : Value → Value
  | .object members => .object (inOrder (orderedKeys source (members.map Prod.fst)) (normalizeMembers source members))
  | .array items => .array (normalizeItems (itemSources source) items)
  | .null => .null
  | .bool value => .bool value
  | .int value => .int value
  | .float lexeme => .float lexeme
  | .string value => .string value

def normalizeMembers (source : Option Object) : List (String × Value) → List (String × Value)
  | [] => []
  | (key, item) :: rest => (key, normalizeSerialized (memberSource source key) item) :: normalizeMembers source rest

def normalizeItems (sources : List Object) : List Value → List Value
  | [] => []
  | item :: rest => normalizeSerialized sources.head? item :: normalizeItems sources.tail rest
end

/-- A model and what `model_dump(mode="json")` gives of it -/
structure ModelInstance where
  declared : List (Option String × Object)
  attributes : List (Option String × Object)
  extras : List (Option String × Object)
  serialized : Value

def ModelInstance.object (model : ModelInstance) : Object := .model model.declared model.attributes model.extras

def isObject : Value → Bool
  | .object _ => true
  | _ => false

/-- `canonical_model_data`; none where it raises `TypeError`. -/
def canonicalModelData (model : ModelInstance) : Option Value :=
  let normalized := normalizeSerialized (some model.object) model.serialized
  if preflightDeclared model.object && isObject normalized then some normalized else none

/-! The order is all that is changed. -/

def shape : Value → Value
  | .object _ => .object []
  | .array items => .array (items.map fun _ => .null)
  | .null => .null
  | .bool value => .bool value
  | .int value => .int value
  | .float lexeme => .float lexeme
  | .string value => .string value

/-- A step into a value: to a key, or to an index -/
inductive Step where
  | key (name : String)
  | index (number : Nat)

def part : Value → Step → Option Value
  | .object members, .key name => members.lookup name
  | .array items, .index number => items[number]?
  | _, _ => none

def found : List Step → Value → Option Value
  | [], value => some (shape value)
  | step :: rest, value => (part value step).bind (found rest)

variable {members : List (String × Value)} {keys : List String}

theorem lookup_filterMap {key : String} (listed : (members.lookup key).isSome → key ∈ keys) :
    (inOrder keys members).lookup key = members.lookup key := by
  unfold inOrder
  induction keys with
  | nil =>
    cases held : members.lookup key with
    | none => rfl
    | some item => exact absurd (listed (by rw [held]; rfl)) not_mem_nil
  | cons first rest ih =>
    by_cases same : key = first
    · subst same
      cases held : members.lookup key with
      | some item => rw [filterMap_cons_some (by rw [held]; rfl), lookup_cons_self]
      | none =>
        rw [filterMap_cons_none (by rw [held]; rfl), ih (by rw [held]; exact fun none => absurd none (by decide)), held]
    · have later := ih fun some => (mem_cons.mp (listed some)).resolve_left same
      cases other : members.lookup first with
      | none => rw [filterMap_cons_none (by rw [other]; rfl), later]
      | some item =>
        rw [filterMap_cons_some (by rw [other]; rfl), lookup_cons, beq_eq_false_iff_ne.mpr same]
        exact later

theorem mem_orderedKeys {source : Option Object} {key : String} (member : key ∈ keys) : key ∈ orderedKeys source keys := by
  unfold orderedKeys
  split
  · next declared attributes extras =>
    rw [mem_append, mem_sortedBy, mem_filter, mem_filter]
    by_cases field : key ∈ declared.filterMap Prod.fst
    · exact .inl ⟨field, by simpa using member⟩
    · exact .inr ⟨member, by simpa using field⟩
  · exact mem_sortedBy.mpr member

theorem lookup_normalizeMembers (source : Option Object) (members : List (String × Value)) (key : String) :
    (normalizeMembers source members).lookup key = (members.lookup key).map (normalizeSerialized (memberSource source key)) := by
  induction members with
  | nil =>
    rw [normalizeMembers]
    rfl
  | cons entry rest ih =>
    obtain ⟨name, item⟩ := entry
    rw [normalizeMembers, lookup_cons, lookup_cons]
    by_cases same : key = name
    · subst same
      rw [beq_self_eq_true]
      rfl
    · rw [beq_eq_false_iff_ne.mpr same]
      exact ih

theorem getElem?_normalizeItems (sources : List Object) (items : List Value) (number : Nat) :
    (normalizeItems sources items)[number]? = items[number]?.map (normalizeSerialized sources[number]?) := by
  induction items generalizing sources number with
  | nil =>
    rw [normalizeItems]
    rfl
  | cons item rest ih =>
    rw [normalizeItems]
    cases number with
    | zero => simp [head?_eq_getElem?]
    | succ number => simp [ih]

theorem isSome_lookup {key : String} (held : (members.lookup key).isSome) : key ∈ members.map Prod.fst := by
  obtain ⟨item, at_⟩ := Option.isSome_iff_exists.mp held
  obtain ⟨front, back, split, _⟩ := lookup_eq_some_iff.mp at_
  rw [split, map_append, map_cons]
  exact mem_append_right _ mem_cons_self

theorem part_normalizeSerialized (source : Option Object) (value : Value) (step : Step) :
    ∃ inner, part (normalizeSerialized source value) step = (part value step).map (normalizeSerialized inner) := by
  cases value with
  | object members =>
    cases step with
    | key name =>
      refine ⟨memberSource source name, ?_⟩
      have listed : ((normalizeMembers source members).lookup name).isSome → name ∈ orderedKeys source (members.map Prod.fst) := by
        rw [lookup_normalizeMembers, Option.isSome_map]
        exact fun held => mem_orderedKeys (isSome_lookup held)
      rw [normalizeSerialized]
      show (inOrder _ _).lookup name = _
      rw [lookup_filterMap listed, lookup_normalizeMembers]
      rfl
    | index number =>
      refine ⟨none, ?_⟩
      rw [normalizeSerialized]
      rfl
  | array items =>
    cases step with
    | key name =>
      refine ⟨none, ?_⟩
      rw [normalizeSerialized]
      rfl
    | index number =>
      refine ⟨(itemSources source)[number]?, ?_⟩
      rw [normalizeSerialized]
      exact getElem?_normalizeItems _ items number
  | _ =>
    refine ⟨none, ?_⟩
    simp only [normalizeSerialized]
    rfl

theorem length_normalizeItems (sources : List Object) (items : List Value) : (normalizeItems sources items).length = items.length := by
  induction items generalizing sources with
  | nil => rw [normalizeItems]
  | cons item rest ih => rw [normalizeItems, length_cons, length_cons, ih]

theorem shape_normalizeSerialized (source : Option Object) (value : Value) : shape (normalizeSerialized source value) = shape value := by
  cases value with
  | array items =>
    rw [normalizeSerialized, shape, shape, map_const', map_const', length_normalizeItems]
  | object members => rw [normalizeSerialized, shape, shape]
  | _ => rw [normalizeSerialized]

theorem found_normalizeSerialized (path : List Step) (source : Option Object) (value : Value) :
    found path (normalizeSerialized source value) = found path value := by
  induction path generalizing source value with
  | nil => exact congrArg some (shape_normalizeSerialized source value)
  | cons step rest ih =>
    obtain ⟨inner, moved⟩ := part_normalizeSerialized source value step
    unfold found
    rw [moved, Option.bind_map]
    exact congrArg (part value step).bind (funext fun item => ih inner item)

theorem found_canonicalModelData {model : ModelInstance} {data : Value} (canonical : canonicalModelData model = some data) (path : List Step) :
    found path data = found path model.serialized := by
  unfold canonicalModelData at canonical
  dsimp only at canonical
  split at canonical
  · rw [← Option.some.inj canonical, found_normalizeSerialized]
  · cases canonical

/-! Data that is canonical already. -/

theorem normalizeMembers_eq {source : Option Object}
    (each : ∀ entry ∈ members, normalizeSerialized (memberSource source entry.1) entry.2 = entry.2) :
    normalizeMembers source members = members := by
  induction members with
  | nil => rw [normalizeMembers]
  | cons entry rest ih =>
    rw [normalizeMembers, each entry mem_cons_self, ih fun other member => each other (mem_cons_of_mem _ member)]

theorem normalizeItems_map {α : Type} {items : List α} {object : α → Object} {data : α → Value}
    (each : ∀ item ∈ items, normalizeSerialized (some (object item)) (data item) = data item) :
    normalizeItems (items.map object) (items.map data) = items.map data := by
  induction items with
  | nil => rw [map_nil, map_nil, normalizeItems]
  | cons item rest ih =>
    rw [map_cons, map_cons, normalizeItems, head?_cons, tail_cons, each item mem_cons_self,
      ih fun other member => each other (mem_cons_of_mem _ member)]

theorem filter_contains {names : List String} (distinct : names.Nodup) (fields : keys.Sublist names) :
    names.filter (keys.contains ·) = keys := by
  induction fields with
  | slnil => rfl
  | @cons keys names name fields ih =>
    have absent : name ∉ keys := fun member => (nodup_cons.mp distinct).1 (fields.subset member)
    rw [filter_cons_of_neg (by simpa using absent)]
    exact ih (nodup_cons.mp distinct).2
  | @cons_cons keys names name fields ih =>
    have apart := (nodup_cons.mp distinct).1
    rw [filter_cons_of_pos (by simp)]
    congr 1
    calc
      names.filter ((name :: keys).contains ·) = names.filter (keys.contains ·) := by
        apply filter_congr
        intro other member
        have differ : other ≠ name := fun same => apart (same ▸ member)
        simp [differ]
      _ = keys := ih (nodup_cons.mp distinct).2

theorem inOrder_self (distinct : (members.map Prod.fst).Nodup) :
    inOrder (members.map Prod.fst) members = members := by
  unfold inOrder
  induction members with
  | nil => rfl
  | cons entry rest ih =>
    obtain ⟨key, item⟩ := entry
    rw [map_cons, nodup_cons] at distinct
    rw [map_cons, filterMap_cons_some (by rw [lookup_cons_self]; rfl)]
    congr 1
    calc
      (rest.map Prod.fst).filterMap (fun other => (((key, item) :: rest).lookup other).map fun item => (other, item)) =
          (rest.map Prod.fst).filterMap (fun other => (rest.lookup other).map fun item => (other, item)) := by
        apply filterMap_congr
        intro other member
        have differ : (other == key) = false := beq_eq_false_iff_ne.mpr fun same => distinct.1 (same ▸ member)
        rw [lookup_cons, differ]
      _ = rest := ih distinct.2

/-- What a model writes of its declared fields, in their order, is canonical where its parts are. -/
theorem normalizeSerialized_model {declared attributes extras : List (Option String × Object)}
    (distinct : (declared.filterMap Prod.fst).Nodup) (fields : (members.map Prod.fst).Sublist (declared.filterMap Prod.fst))
    (parts : ∀ entry ∈ members, normalizeSerialized (memberSource (some (.model declared attributes extras)) entry.1) entry.2 = entry.2) :
    normalizeSerialized (some (.model declared attributes extras)) (.object members) = .object members := by
  have undeclared : (members.map Prod.fst).filter (fun key => !(declared.filterMap Prod.fst).contains key) = [] := by
    rw [filter_eq_nil_iff]
    intro key member
    simpa using fields.subset member
  rw [normalizeSerialized, normalizeMembers_eq parts, orderedKeys, filter_contains distinct fields, undeclared]
  show Value.object (inOrder (_ ++ sortedBy id []) members) = _
  rw [sortedBy, mergeSort_nil, append_nil, inOrder_self (fields.nodup distinct)]

end Workctx.Serialization
