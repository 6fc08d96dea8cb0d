import Mathlib.Data.List.Basic
import Mathlib.Logic.Function.Basic

/-! Pieces of one sequence in numbered slots, the oldest piece in the highest slot: moving a piece into a free slot above it changes nothing, and
freeing the highest slot loses the oldest items only. -/

namespace Workctx.Durable

abbrev Slots (α : Type) := Nat → Option (List α)

namespace Slots
variable {α : Type}

def empty : Slots α := fun _ => none

def vacate (slots : Slots α) (index : Nat) : Slots α := Function.update slots index none

def shift (slots : Slots α) (index : Nat) : Slots α :=
  Function.update (Function.update slots (index + 1) (slots index)) index none

def extend (slots : Slots α) (items : List α) : Slots α := Function.update slots 0 (some ((slots 0).getD [] ++ items))

/-- What the slots up to a number hold, the oldest piece first. -/
def pieces (slots : Slots α) : Nat → List (List α)
  | 0 => (slots 0).toList
  | top + 1 => (slots (top + 1)).toList ++ pieces slots top

section
variable (slots : Slots α)
include slots

@[simp] theorem shift_from (index : Nat) : shift slots index index = none := Function.update_self _ _ _

@[simp] theorem shift_into (index : Nat) : shift slots index (index + 1) = slots index := by
  rw [shift, Function.update_of_ne (by omega), Function.update_self]

theorem shift_other {index other : Nat} (low : other ≠ index) (high : other ≠ index + 1) :
    shift slots index other = slots other := by
  rw [shift, Function.update_of_ne low, Function.update_of_ne high]

@[simp] theorem vacate_self (index : Nat) : vacate slots index index = none := Function.update_self _ _ _

theorem vacate_other {index other : Nat} (apart : other ≠ index) : vacate slots index other = slots other :=
  Function.update_of_ne apart _ _

@[simp] theorem extend_first (items : List α) : extend slots items 0 = some ((slots 0).getD [] ++ items) :=
  Function.update_self _ _ _

theorem extend_other (items : List α) {index : Nat} (later : index ≠ 0) : extend slots items index = slots index :=
  Function.update_of_ne later _ _

end

variable {slots : Slots α} {top : Nat}

theorem vacate_free {index : Nat} (free : slots index = none) : vacate slots index = slots := by
  rw [vacate, ← free, Function.update_eq_self]

theorem shift_free {index : Nat} (free : slots index = none) (above : slots (index + 1) = none) :
    shift slots index = slots := by
  funext other
  by_cases low : other = index
  · rw [low, shift_from, free]
  by_cases high : other = index + 1
  · rw [high, shift_into, free, above]
  · rw [shift_other slots low high]

theorem pieces_congr {one two : Slots α} (same : ∀ index ≤ top, one index = two index) : pieces one top = pieces two top := by
  induction top with
  | zero => rw [pieces, pieces, same 0 (Nat.le_refl _)]
  | succ top ih =>
    rw [pieces, pieces, same (top + 1) (Nat.le_refl _), ih fun index below => same index (by omega)]

theorem mem_pieces {piece : List α} :
    piece ∈ pieces slots top ↔ ∃ index ≤ top, slots index = some piece := by
  induction top with
  | zero =>
    rw [pieces, Option.mem_toList]
    constructor
    · intro held
      exact ⟨0, (Nat.le_refl _), held⟩
    · intro held
      obtain ⟨index, zero, held⟩ := held
      rwa [Nat.le_zero.mp zero] at held
  | succ top ih =>
    rw [pieces, List.mem_append, Option.mem_toList, ih]
    constructor
    · intro held
      cases held with
      | inl held => exact ⟨top + 1, (Nat.le_refl _), held⟩
      | inr held =>
        obtain ⟨index, below, held⟩ := held
        exact ⟨index, by omega, held⟩
    · intro held
      obtain ⟨index, below, held⟩ := held
      by_cases last : index = top + 1
      · exact Or.inl (last ▸ held)
      · exact Or.inr ⟨index, by omega, held⟩

theorem pieces_empty (top : Nat) : pieces (empty : Slots α) top = [] := by
  induction top with
  | zero => rfl
  | succ top ih => rw [pieces, ih, empty, Option.toList_none, List.nil_append]

theorem pieces_vacate (slots : Slots α) (top : Nat) :
    (pieces (vacate slots (top + 1)) (top + 1)).flatten <:+ (pieces slots (top + 1)).flatten := by
  have lower : pieces (vacate slots (top + 1)) top = pieces slots top :=
    pieces_congr fun index below => vacate_other slots (by omega)
  rw [pieces, pieces, lower, vacate_self, Option.toList_none, List.nil_append, List.flatten_append]
  exact List.suffix_append _ _

theorem pieces_shift {index : Nat} (free : slots (index + 1) = none) (below : index < top) :
    pieces (shift slots index) top = pieces slots top := by
  induction top with
  | zero => omega
  | succ top ih =>
    by_cases last : index = top
    · subst last
      rw [pieces, pieces, shift_into, free, Option.toList_none, List.nil_append]
      cases index with
      | zero => rw [pieces, pieces, shift_from, Option.toList_none, List.append_nil]
      | succ index =>
        have lower : pieces (shift slots (index + 1)) index = pieces slots index :=
          pieces_congr fun other under => shift_other slots (by omega) (by omega)
        rw [pieces, pieces, shift_from, Option.toList_none, List.nil_append, lower]
    · rw [pieces, pieces, shift_other slots (by omega) (by omega), ih (by omega)]

theorem pieces_extend (slots : Slots α) (items : List α) (top : Nat) :
    (pieces (extend slots items) top).flatten = (pieces slots top).flatten ++ items := by
  induction top with
  | zero =>
    rw [pieces, pieces, extend_first]
    cases slots 0 with
    | none => simp
    | some piece => simp
  | succ top ih =>
    rw [pieces, pieces, extend_other slots items (Nat.succ_ne_zero top), List.flatten_append, List.flatten_append, ih, List.append_assoc]

theorem mem_pieces_extend {items : List α} {piece : List α} (member : piece ∈ pieces (extend slots items) top) :
    piece = (slots 0).getD [] ++ items ∨ piece ∈ pieces slots top := by
  obtain ⟨index, below, held⟩ := mem_pieces.mp member
  by_cases first : index = 0
  · rw [first, extend_first] at held
    exact Or.inl (Option.some.inj held).symm
  · rw [extend_other slots items first] at held
    exact Or.inr (mem_pieces.mpr ⟨index, below, held⟩)

theorem mem_pieces_vacate {freed : Nat} {piece : List α} (member : piece ∈ pieces (vacate slots freed) top) :
    piece ∈ pieces slots top := by
  obtain ⟨index, below, held⟩ := mem_pieces.mp member
  by_cases same : index = freed
  · rw [same, vacate_self] at held
    cases held
  · rw [vacate_other slots same] at held
    exact mem_pieces.mpr ⟨index, below, held⟩

end Slots
end Workctx.Durable
