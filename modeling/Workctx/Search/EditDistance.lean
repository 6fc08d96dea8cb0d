import Mathlib.Data.List.Basic
import Mathlib.Algebra.Order.Group.Nat

/-! The edit distance of two lists, and the rows of its table. -/

namespace Workctx.Search
open List
variable {α : Type} [DecidableEq α]

/-- The insertions, deletions and replacements that turn a list into another. -/
def editDistance : List α → List α → Nat
  | [], two => two.length
  | one, [] => one.length
  | first :: one, second :: two =>
    min (min (editDistance (first :: one) two + 1) (editDistance one (second :: two) + 1))
      (editDistance one two + if first = second then 0 else 1)
termination_by one two => one.length + two.length

theorem editDistance_nil (one : List α) : editDistance one [] = one.length := by
  cases one <;> simp [editDistance]

theorem nil_editDistance (two : List α) : editDistance [] two = two.length := by rw [editDistance]

theorem editDistance_comm (one two : List α) : editDistance one two = editDistance two one := by
  induction one, two using editDistance.induct with
  | case1 two => rw [nil_editDistance, editDistance_nil]
  | case2 one _ => rw [nil_editDistance, editDistance_nil]
  | case3 first one second two ih ih' ih'' =>
    rw [editDistance, editDistance, ih, ih', ih'', min_comm (editDistance two (first :: one) + 1)]
    simp only [eq_comm]

/-! The table, one row for each prefix of the one list; the prefixes are held backwards. -/

def extendRow (item : α) : Nat → List Nat → List α → List Nat
  | last, diagonal :: above :: previous, other :: rest =>
    let here := min (min (last + 1) (above + 1)) (diagonal + if item = other then 0 else 1)
    here :: extendRow item here (above :: previous) rest
  | _, _, _ => []

def nextRow (right : List α) (previous : List Nat) (item : α × Nat) : List Nat := item.2 :: extendRow item.1 item.2 previous right

def levenshtein (left right : List α) : Nat :=
  ((left.zipIdx 1).foldl (nextRow right) (List.range (right.length + 1))).getLastD 0

def distances (one : List α) : List α → List α → List Nat
  | front, [] => [editDistance one front]
  | front, other :: rest => editDistance one front :: distances one (other :: front) rest

theorem extendRow_distances (item : α) (one front rest : List α) :
    editDistance (item :: one) front :: extendRow item (editDistance (item :: one) front) (distances one front rest) rest =
      distances (item :: one) front rest := by
  induction rest generalizing front with
  | nil =>
    rw [distances, distances, extendRow]
    simp
  | cons other rest ih =>
    have head : ∃ cells, distances one (other :: front) rest = editDistance one (other :: front) :: cells := by
      cases rest with
      | nil => exact ⟨[], rfl⟩
      | cons next rest => exact ⟨_, rfl⟩
    obtain ⟨cells, same⟩ := head
    have here : editDistance (item :: one) (other :: front) = min (min (editDistance (item :: one) front + 1)
        (editDistance one (other :: front) + 1)) (editDistance one front + if item = other then 0 else 1) := by rw [editDistance]
    rw [distances, distances, same, extendRow, ← here, ← same, ih (other :: front)]

theorem distances_nil (front rest : List α) : distances [] front rest = List.range' front.length (rest.length + 1) := by
  induction rest generalizing front with
  | nil =>
    rw [distances, nil_editDistance]
    rfl
  | cons other rest ih =>
    rw [distances, ih (other :: front), nil_editDistance, length_cons]
    rfl

theorem rows_eq (left right front : List α) :
    (left.zipIdx (front.length + 1)).foldl (nextRow right) (distances front [] right) = distances (left.reverse ++ front) [] right := by
  induction left generalizing front with
  | nil => rfl
  | cons item left ih =>
    have row : nextRow right (distances front [] right) (item, front.length + 1) = distances (item :: front) [] right := by
      have below := extendRow_distances item front [] right
      rw [editDistance_nil, length_cons] at below
      exact below
    rw [zipIdx_cons, foldl_cons, row, ← length_cons, ih (item :: front)]
    simp

theorem distances_last (one front rest : List α) (cell : Nat) :
    (distances one front rest).getLastD cell = editDistance one (rest.reverse ++ front) := by
  induction rest generalizing front cell with
  | nil => rfl
  | cons other rest ih => rw [distances, getLastD_cons, ih (other :: front), reverse_cons, append_assoc, singleton_append]

theorem levenshtein_eq (left right : List α) : levenshtein left right = editDistance left.reverse right.reverse := by
  have start : List.range (right.length + 1) = distances ([] : List α) [] right := by
    rw [distances_nil, range_eq_range']
    rfl
  unfold levenshtein
  rw [start]
  have rows := rows_eq left right []
  rw [length_nil, append_nil] at rows
  rw [rows, distances_last, append_nil]

theorem levenshtein_comm (left right : List α) : levenshtein left right = levenshtein right left := by
  rw [levenshtein_eq, levenshtein_eq, editDistance_comm]

/-! The distance is the least cost of an alignment. -/

inductive Aligned : List α → List α → Nat → Prop where
  | nil : Aligned [] [] 0
  | delete (item : α) {one two : List α} {cost : Nat} : Aligned one two cost → Aligned (item :: one) two (cost + 1)
  | insert (item : α) {one two : List α} {cost : Nat} : Aligned one two cost → Aligned one (item :: two) (cost + 1)
  | replace (first second : α) {one two : List α} {cost : Nat} :
    Aligned one two cost → Aligned (first :: one) (second :: two) (cost + if first = second then 0 else 1)

section
variable {one two : List α} {cost : Nat}

theorem editDistance_cons_le (item : α) (one two : List α) : editDistance (item :: one) two ≤ editDistance one two + 1 := by
  cases two with
  | nil => rw [editDistance_nil, editDistance_nil, length_cons]
  | cons second two =>
    rw [editDistance]
    exact (min_le_left _ _).trans (min_le_right _ _)

theorem Aligned.editDistance_le (aligned : Aligned one two cost) : editDistance one two ≤ cost := by
  induction aligned with
  | nil => rw [editDistance_nil, length_nil]
  | delete item _ ih => exact (editDistance_cons_le item _ _).trans (Nat.succ_le_succ ih)
  | insert item _ ih =>
    rw [editDistance_comm] at ih ⊢
    exact (editDistance_cons_le item _ _).trans (Nat.succ_le_succ ih)
  | replace first second _ ih =>
    rw [editDistance]
    exact (min_le_right _ _).trans (Nat.add_le_add_right ih _)

theorem aligned_editDistance (one two : List α) : Aligned one two (editDistance one two) := by
  induction one, two using editDistance.induct with
  | case1 two =>
    rw [nil_editDistance]
    induction two with
    | nil => exact .nil
    | cons item two ih => exact .insert item ih
  | case2 one filled =>
    rw [editDistance_nil]
    clear filled
    induction one with
    | nil => exact .nil
    | cons item one ih => exact .delete item ih
  | case3 first one second two ih ih' ih'' =>
    rw [editDistance]
    -- the least of three costs is one of them
    rcases min_choice (min (editDistance (first :: one) two + 1) (editDistance one (second :: two) + 1))
      (editDistance one two + if first = second then 0 else 1) with least | least
    · rw [least]
      rcases min_choice (editDistance (first :: one) two + 1) (editDistance one (second :: two) + 1) with inner | inner
      · rw [inner]
        exact .insert second ih
      · rw [inner]
        exact .delete first ih'
    · rw [least]
      exact .replace first second ih''

theorem Aligned.append {one' two' : List α} {cost' : Nat} (front : Aligned one two cost) (back : Aligned one' two' cost') :
    Aligned (one ++ one') (two ++ two') (cost + cost') := by
  induction front with
  | nil =>
    rw [Nat.zero_add]
    exact back
  | delete item _ ih =>
    rw [Nat.add_right_comm]
    exact .delete item ih
  | insert item _ ih =>
    rw [Nat.add_right_comm]
    exact .insert item ih
  | replace first second _ ih =>
    rw [Nat.add_right_comm]
    exact .replace first second ih

theorem Aligned.reverse (aligned : Aligned one two cost) : Aligned one.reverse two.reverse cost := by
  induction aligned with
  | nil => exact .nil
  | delete item _ ih => simpa using ih.append (.delete item .nil)
  | insert item _ ih => simpa using ih.append (.insert item .nil)
  | replace first second _ ih => simpa using ih.append (.replace first second .nil)

theorem editDistance_reverse (one two : List α) : editDistance one.reverse two.reverse = editDistance one two := by
  apply le_antisymm
  · exact (aligned_editDistance one two).reverse.editDistance_le
  · have back := (aligned_editDistance one.reverse two.reverse).reverse
    rw [reverse_reverse, reverse_reverse] at back
    exact back.editDistance_le

theorem levenshtein_eq_editDistance (left right : List α) : levenshtein left right = editDistance left right := by
  rw [levenshtein_eq, editDistance_reverse]

theorem editDistance_le_max (one two : List α) : editDistance one two ≤ max one.length two.length := by
  induction one, two using editDistance.induct with
  | case1 two =>
    rw [nil_editDistance]
    exact le_max_right _ _
  | case2 one _ =>
    rw [editDistance_nil]
    exact le_max_left _ _
  | case3 first one second two _ _ ih =>
    have replaced : editDistance (first :: one) (second :: two) ≤ editDistance one two + 1 := by
      rw [editDistance]
      apply (min_le_right _ _).trans
      split <;> omega
    rw [length_cons, length_cons]
    omega

theorem Aligned.eq_of_zero (aligned : Aligned one two cost) (free : cost = 0) : one = two := by
  induction aligned with
  | nil => rfl
  | delete item _ _ => omega
  | insert item _ _ => omega
  | replace first second _ ih =>
    split at free
    · next same => rw [same, ih free]
    · omega

theorem editDistance_eq_zero : editDistance one two = 0 ↔ one = two := by
  constructor
  · exact (aligned_editDistance one two).eq_of_zero
  · intro same
    subst same
    induction one with
    | nil => exact editDistance_nil []
    | cons item one ih =>
      have kept : Aligned (item :: one) (item :: one) 0 := by
        have rest := Aligned.replace item item (aligned_editDistance one one)
        rw [ih, if_pos rfl] at rest
        exact rest
      exact Nat.le_zero.mp kept.editDistance_le

end

end Workctx.Search
