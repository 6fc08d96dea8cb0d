import Mathlib.Data.List.Sort
import Mathlib.Order.MinMax

/-! Intervals swept in the order of their starts. -/

namespace Workctx.Sweep
open List
variable {α τ : Type} [LinearOrder τ] (start finish : α → τ)

/-- The items that start before the furthest end of those before them. -/
def sweep : Option τ → List α → List α
  | _, [] => []
  | none, item :: rest => sweep (some (finish item)) rest
  | some furthest, item :: rest =>
    (if start item < furthest then [item] else []) ++ sweep (some (max furthest (finish item))) rest

/-- The half-open intervals of two items have a point in common. -/
def Meets (one two : α) : Prop := start one < finish two ∧ start two < finish one

variable {start finish}

theorem Meets.symm {one two : α} (meets : Meets start finish one two) : Meets start finish two one := ⟨meets.2, meets.1⟩

theorem mem_sweep_some {furthest : τ} {items : List α} {item : α} :
    item ∈ sweep start finish (some furthest) items ↔
      ∃ front back, items = front ++ item :: back ∧ (start item < furthest ∨ ∃ earlier ∈ front, start item < finish earlier) := by
  induction items generalizing furthest with
  | nil => simp [sweep]
  | cons first rest ih =>
    rw [sweep, mem_append, ih]
    constructor
    · intro found
      rcases found with here | ⟨front, back, split, reaches⟩
      · split at here
        · next early =>
          obtain rfl := mem_singleton.mp here
          exact ⟨[], rest, rfl, .inl early⟩
        · exact absurd here not_mem_nil
      · refine ⟨first :: front, back, by rw [split]; rfl, ?_⟩
        rcases reaches with least | ⟨earlier, member, early⟩
        · rcases lt_max_iff.mp least with before | before
          · exact .inl before
          · exact .inr ⟨first, mem_cons_self, before⟩
        · exact .inr ⟨earlier, mem_cons_of_mem first member, early⟩
    · intro ⟨front, back, split, reaches⟩
      cases front with
      | nil =>
        obtain ⟨rfl, rfl⟩ := List.cons.inj split
        have early : start first < furthest := by simpa using reaches
        exact .inl (by simp [early])
      | cons other front =>
        obtain ⟨rfl, rfl⟩ := List.cons.inj split
        refine .inr ⟨front, back, rfl, ?_⟩
        rcases reaches with least | ⟨earlier, member, early⟩
        · exact .inl (lt_max_of_lt_left least)
        · rcases mem_cons.mp member with same | later
          · exact .inl (lt_max_of_lt_right (same ▸ early))
          · exact .inr ⟨earlier, later, early⟩

theorem mem_sweep {items : List α} {item : α} :
    item ∈ sweep start finish none items ↔
      ∃ front back, items = front ++ item :: back ∧ ∃ earlier ∈ front, start item < finish earlier := by
  cases items with
  | nil => simp [sweep]
  | cons first rest =>
    rw [sweep, mem_sweep_some]
    constructor
    · intro ⟨front, back, split, reaches⟩
      refine ⟨first :: front, back, by rw [split]; rfl, ?_⟩
      rcases reaches with least | ⟨earlier, member, early⟩
      · exact ⟨first, mem_cons_self, least⟩
      · exact ⟨earlier, mem_cons_of_mem first member, early⟩
    · intro ⟨front, back, split, earlier, member, early⟩
      cases front with
      | nil => exact absurd member not_mem_nil
      | cons other front =>
        obtain ⟨rfl, rfl⟩ := List.cons.inj split
        refine ⟨front, back, rfl, ?_⟩
        rcases mem_cons.mp member with same | later
        · exact .inl (same ▸ early)
        · exact .inr ⟨earlier, later, early⟩

/-- In a list without repetition that is ordered strictly, the items in front of one are those that are less. -/
theorem mem_sweep_sorted {less : α → α → Prop} (asymm : ∀ one two, less one two → ¬less two one) {items : List α}
    (sorted : items.Pairwise less) {item : α} :
    item ∈ sweep start finish none items ↔
      item ∈ items ∧ ∃ earlier ∈ items, less earlier item ∧ start item < finish earlier := by
  rw [mem_sweep]
  constructor
  · intro ⟨front, back, split, earlier, member, early⟩
    subst split
    have before := (pairwise_append.mp sorted).2.2 earlier member item mem_cons_self
    exact ⟨by simp, earlier, mem_append_left _ member, before, early⟩
  · intro ⟨inside, earlier, member, before, early⟩
    obtain ⟨front, back, rfl⟩ := append_of_mem inside
    refine ⟨front, back, rfl, earlier, ?_, early⟩
    have parts := pairwise_append.mp sorted
    rcases mem_append.mp member with here | after
    · exact here
    · rcases mem_cons.mp after with same | later
      · subst same
        exact absurd before (asymm _ _ before)
      · exact absurd before (asymm _ _ ((pairwise_cons.mp parts.2.1).1 earlier later))

end Workctx.Sweep
