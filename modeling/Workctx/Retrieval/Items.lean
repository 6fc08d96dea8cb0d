import Workctx.Retrieval.Ranking
import Workctx.Json.Value

/-! The items of a context pack, and what they cost of its budget. -/

namespace Workctx.Retrieval
open Workctx.Json Workctx.Search List

/-! Values. -/

mutual
/-- `==` of two JSON values -/
def sameValue : Value → Value → Bool
  | .null, .null => true
  | .bool one, .bool two => one == two
  | .int one, .int two => one == two
  | .float one, .float two => one == two
  | .string one, .string two => one == two
  | .array one, .array two => sameElements one two
  | .object one, .object two => sameMembers one two
  | _, _ => false

def sameElements : List Value → List Value → Bool
  | [], [] => true
  | one :: rest, two :: others => sameValue one two && sameElements rest others
  | _, _ => false

def sameMembers : List (String × Value) → List (String × Value) → Bool
  | [], [] => true
  | (key, one) :: rest, (other, two) :: others => key == other && sameValue one two && sameMembers rest others
  | _, _ => false
end

mutual
/-- The order that `json.dumps(value, sort_keys=True)` prints a value in. -/
def sortKeys : Value → Value
  | .array items => .array (sortElements items)
  | .object members => .object (sortedBy Prod.fst (sortMembers members))
  | value => value

def sortElements : List Value → List Value
  | [] => []
  | item :: rest => sortKeys item :: sortElements rest

def sortMembers : List (String × Value) → List (String × Value)
  | [] => []
  | (key, item) :: rest => (key, sortKeys item) :: sortMembers rest
end

/-! Items. -/

inductive PackItemKind where
  | entity (type : EntityType)
  | relationship
  | dependency
  | interaction
  | statusHistory
deriving DecidableEq

def PackItemKind.value : PackItemKind → String
  | .entity type => type.value
  | .relationship => "relationship"
  | .dependency => "dependency"
  | .interaction => "interaction"
  | .statusHistory => "status_history"

structure RankMetadata where
  factors : RankingFactors
  total : Nat
deriving DecidableEq

def rankMetadata (scored : RankedCandidate) : RankMetadata := ⟨scored.factors, scored.totalScore⟩

def RankMetadata.dump (rank : RankMetadata) : Value :=
  .object [("relation_semantics", .int rank.factors.relationSemantics), ("recency", .int rank.factors.recency),
    ("current_state", .int rank.factors.claimState), ("confidence", .int rank.factors.confidence),
    ("directness", .int rank.factors.directness), ("query_match", .int rank.factors.queryMatch),
    ("entity_importance", .int rank.factors.entityImportance), ("source_quality", .int rank.factors.sourceQuality),
    ("total", .int rank.total)]

/-- `PackItem`, whose title and URI its model has accepted. -/
structure PackItem where
  id : String
  kind : PackItemKind
  uri : Option String
  title : String
  summary : String
  data : List (String × Value)
  rank : Option RankMetadata
  named : id ≠ ""

/-- `==` of two items -/
def PackItem.same (one two : PackItem) : Bool :=
  one.id == two.id && one.kind == two.kind && one.uri == two.uri && one.title == two.title && one.summary == two.summary &&
    sameMembers one.data two.data && one.rank == two.rank

/-- `item.model_dump(mode="json")` -/
def PackItem.dump (item : PackItem) : Value :=
  .object [("id", .string item.id), ("kind", .string item.kind.value), ("uri", (item.uri.map Value.string).getD .null),
    ("title", .string item.title), ("summary", .string item.summary), ("data", .object item.data),
    ("rank", (item.rank.map RankMetadata.dump).getD .null)]

def estimatePackItemUnits (item : PackItem) : Nat := ((dumpsCompact (sortKeys item.dump)).length + 3) / 4

/-- How secret-looking values are redacted: `sanitize_text`, and `sanitize_json` of the member of a mapping. -/
structure Sanitizer where
  text : String → String
  member : String → Value → Value

def sanitizedMapping (sanitizer : Sanitizer) (data : List (String × Value)) : List (String × Value) :=
  (sortedBy Prod.fst data).map fun member => (member.1, sanitizer.member member.1 member.2)

/-- What `_record_item` reads of a record of either kind: the two fields that it always shows, and the others. -/
structure DocumentRecord where
  id : String
  entityType : EntityType
  uri : String
  title : String
  body : String
  facts : List (String × Value)
  details : List (String × Value)
  named : id ≠ ""
  apart : ∀ fact ∈ facts, ∀ detail ∈ details, fact.1 ≠ detail.1

def recordItem (sanitizer : Sanitizer) (record : DocumentRecord) (minimal : Bool) : PackItem where
  id := record.id
  kind := .entity record.entityType
  uri := some record.uri
  title := sanitizer.text record.title
  summary := if minimal then "" else sanitizer.text record.body
  data := sanitizedMapping sanitizer (if minimal then record.facts else record.facts ++ record.details)
  rank := none
  named := record.named

/-! What an item costs. -/

def memberSize (depth : Nat) (member : String × Value) : Nat :=
  (printString member.1).length + (print compact depth member.2).length + 2

def objectSize (sizes : List Nat) : Nat := if sizes = [] then 2 else sizes.sum + 1

theorem printMembers_length (depth : Nat) (members : List (String × Value)) :
    (printMembers compact depth members).length = (members.map (memberSize depth)).sum := by
  induction members with
  | nil => rfl
  | cons member rest ih =>
    obtain ⟨key, item⟩ := member
    rw [printMembers, map_cons, sum_cons, ← ih]
    simp only [compact, nil_append, length_cons, length_append, length_nil, memberSize]
    omega

theorem print_object_length (depth : Nat) (members : List (String × Value)) :
    (print compact depth (.object members)).length = objectSize (members.map (memberSize (depth + 1))) := by
  cases members with
  | nil => rfl
  | cons member rest =>
    obtain ⟨key, item⟩ := member
    have others := printMembers_length (depth + 1) rest
    rw [print, map_cons, objectSize, if_neg (cons_ne_nil _ _), sum_cons, ← others]
    simp only [compact, nil_append, length_cons, length_append, length_nil, memberSize]
    omega

theorem sortMembers_eq_map (members : List (String × Value)) :
    sortMembers members = members.map fun member => (member.1, sortKeys member.2) := by
  induction members with
  | nil => rfl
  | cons member rest ih =>
    obtain ⟨key, item⟩ := member
    rw [sortMembers, ih]
    rfl

theorem objectSize_perm {one two : List Nat} (same : one.Perm two) : objectSize one = objectSize two := by
  unfold objectSize
  rw [same.sum_nat]
  have empty : one = [] ↔ two = [] := by
    rw [← length_eq_zero_iff, same.length_eq, length_eq_zero_iff]
  simp only [empty]

theorem objectSize_append_le (front : List Nat) {back : List Nat} (positive : ∀ size ∈ back, 0 < size) :
    objectSize front ≤ objectSize (front ++ back) := by
  unfold objectSize
  rw [sum_append]
  cases front with
  | nil =>
    cases back with
    | nil => exact le_rfl
    | cons size rest =>
      have := positive size mem_cons_self
      rw [if_pos rfl, if_neg (by simp), sum_nil, sum_cons]
      omega
  | cons size rest =>
    rw [if_neg (cons_ne_nil _ _), if_neg (by simp)]
    omega

def sortedSize (depth : Nat) (member : String × Value) : Nat := memberSize depth (member.1, sortKeys member.2)

theorem sortKeys_object_length (depth : Nat) (members : List (String × Value)) :
    (print compact depth (sortKeys (.object members))).length = objectSize (members.map (sortedSize (depth + 1))) := by
  rw [sortKeys, print_object_length, sortMembers_eq_map]
  have permuted := (sortedBy_perm Prod.fst (members.map fun member => (member.1, sortKeys member.2))).map (memberSize (depth + 1))
  rw [map_map] at permuted
  exact objectSize_perm permuted

theorem facts_size_le (sanitizer : Sanitizer) (record : DocumentRecord) (depth : Nat) :
    (print compact depth (sortKeys (.object (recordItem sanitizer record true).data))).length ≤
      (print compact depth (sortKeys (.object (recordItem sanitizer record false).data))).length := by
  have sizes : ∀ data : List (String × Value), objectSize ((sanitizedMapping sanitizer data).map (sortedSize (depth + 1))) =
      objectSize (data.map fun member => sortedSize (depth + 1) (member.1, sanitizer.member member.1 member.2)) := by
    intro data
    unfold sanitizedMapping
    rw [map_map]
    exact objectSize_perm ((sortedBy_perm Prod.fst data).map _)
  rw [sortKeys_object_length, sortKeys_object_length]
  unfold recordItem
  dsimp only
  rw [if_pos rfl, if_neg Bool.false_ne_true, sizes, sizes, map_append]
  apply objectSize_append_le
  intro size member
  obtain ⟨detail, _, rfl⟩ := mem_map.mp member
  exact Nat.succ_pos _

theorem minimal_units_le (sanitizer : Sanitizer) (record : DocumentRecord) :
    estimatePackItemUnits (recordItem sanitizer record true) ≤ estimatePackItemUnits (recordItem sanitizer record false) := by
  have data := facts_size_le sanitizer record (0 + 1)
  have summary : (printString "").length ≤ (printString (sanitizer.text record.body)).length := by
    simp [printString, escape]
  have texts : (dumpsCompact (sortKeys (recordItem sanitizer record true).dump)).length ≤
      (dumpsCompact (sortKeys (recordItem sanitizer record false).dump)).length := by
    unfold dumpsCompact PackItem.dump
    rw [sortKeys_object_length, sortKeys_object_length]
    simp only [map_cons, map_nil, objectSize, cons_ne_nil, if_false, sum_cons, sortedSize, memberSize]
    have own : ∀ minimal, (recordItem sanitizer record minimal).id = record.id ∧
        (recordItem sanitizer record minimal).kind = .entity record.entityType ∧ (recordItem sanitizer record minimal).uri = some record.uri ∧
        (recordItem sanitizer record minimal).title = sanitizer.text record.title ∧ (recordItem sanitizer record minimal).rank = none :=
      fun _ => ⟨rfl, rfl, rfl, rfl, rfl⟩
    have short : (print compact (0 + 1) (sortKeys (.string (recordItem sanitizer record true).summary))).length ≤
        (print compact (0 + 1) (sortKeys (.string (recordItem sanitizer record false).summary))).length := summary
    rw [(own true).1, (own true).2.1, (own true).2.2.1, (own true).2.2.2.1, (own true).2.2.2.2, (own false).1, (own false).2.1,
      (own false).2.2.1, (own false).2.2.2.1, (own false).2.2.2.2]
    omega
  unfold estimatePackItemUnits
  omega

end Workctx.Retrieval
