import Mathlib.Data.Nat.Find
import Mathlib.Data.List.Basic

/-! The levels of a search in breadth: what is reached from a start in a number of steps and in no fewer. -/

namespace Workctx.Search
variable {α : Type}

inductive Walk (next : α → α → Prop) (start : α) : Nat → α → Prop where
  | here : Walk next start 0 start
  | step {n : Nat} {u v : α} : Walk next start n u → next u v → Walk next start (n + 1) v

structure AtDistance (next : α → α → Prop) (start : α) (n : Nat) (v : α) : Prop where
  walk : Walk next start n v
  shortest : ∀ m < n, ¬Walk next start m v

section
variable {next : α → α → Prop} {start : α}

theorem atDistance_zero {v : α} : AtDistance next start 0 v ↔ v = start := by
  constructor
  · intro near
    cases near.walk
    rfl
  · rintro rfl
    exact ⟨.here, fun m less => absurd less (Nat.not_lt_zero m)⟩

theorem Walk.exists_distance {n : Nat} {v : α} (walk : Walk next start n v) : ∃ m ≤ n, AtDistance next start m v := by
  classical
  have some : ∃ m, Walk next start m v := ⟨n, walk⟩
  exact ⟨Nat.find some, Nat.find_min' some walk, Nat.find_spec some, fun _ less => Nat.find_min some less⟩

theorem AtDistance.before {n : Nat} {v : α} (far : AtDistance next start (n + 1) v) : ∃ u, AtDistance next start n u ∧ next u v := by
  obtain ⟨walk, shortest⟩ := far
  cases walk with
  | @step _ u _ front last =>
    refine ⟨u, ⟨front, fun m less shorter => ?_⟩, last⟩
    exact shortest (m + 1) (Nat.succ_lt_succ less) (.step shorter last)

/-- The next level: what a step from this one leads to, and none from an earlier one. -/
theorem atDistance_succ {n : Nat} {v : α} : AtDistance next start (n + 1) v ↔
    (∃ u, AtDistance next start n u ∧ next u v) ∧ v ≠ start ∧ ∀ d < n, ∀ u, AtDistance next start d u → ¬next u v := by
  constructor
  · intro far
    refine ⟨far.before, ?_, ?_⟩
    · rintro rfl
      exact far.shortest 0 (Nat.succ_pos n) .here
    · intro d less u near step
      exact far.shortest (d + 1) (Nat.succ_lt_succ less) (.step near.walk step)
  · rintro ⟨⟨u, near, step⟩, away, apart⟩
    refine ⟨.step near.walk step, fun m less walk => ?_⟩
    obtain ⟨d, le, found⟩ := walk.exists_distance
    cases d with
    | zero => exact away (atDistance_zero.mp found)
    | succ d =>
      obtain ⟨w, level, last⟩ := found.before
      exact apart d (by omega) w level last

theorem AtDistance.level_filled {m n : Nat} {v : α} (far : AtDistance next start n v) (le : m ≤ n) : ∃ u, AtDistance next start m u := by
  induction n generalizing v with
  | zero =>
    obtain rfl := Nat.le_zero.mp le
    exact ⟨v, far⟩
  | succ n ih =>
    rcases Nat.of_le_succ le with less | same
    · obtain ⟨u, near, _⟩ := far.before
      exact ih near less
    · exact ⟨v, same ▸ far⟩

end

/-! What is met for the first time. -/

section
variable [DecidableEq α]

/-- The items that were not met before, in the order in which they are met. -/
def fresh : List α → List α → List α
  | _, [] => []
  | met, item :: rest => if item ∈ met then fresh met rest else item :: fresh (item :: met) rest

theorem mem_fresh {met items : List α} {item : α} : item ∈ fresh met items ↔ item ∈ items ∧ item ∉ met := by
  induction items generalizing met with
  | nil => simp [fresh]
  | cons first rest ih =>
    unfold fresh
    split
    · next old =>
      rw [ih, List.mem_cons]
      constructor
      · rintro ⟨later, new⟩
        exact ⟨.inr later, new⟩
      · rintro ⟨rfl | later, new⟩
        · exact absurd old new
        · exact ⟨later, new⟩
    · next new =>
      rw [List.mem_cons, ih, List.mem_cons, List.mem_cons]
      constructor
      · rintro (rfl | ⟨later, apart⟩)
        · exact ⟨.inl rfl, new⟩
        · exact ⟨.inr later, fun old => apart (.inr old)⟩
      · rintro ⟨same | later, apart⟩
        · exact .inl same
        · by_cases here : item = first
          · exact .inl here
          · exact .inr ⟨later, fun old => old.elim here apart⟩

theorem fresh_nodup (met items : List α) : (fresh met items).Nodup := by
  induction items generalizing met with
  | nil => exact List.nodup_nil
  | cons first rest ih =>
    unfold fresh
    split
    · exact ih met
    · exact List.nodup_cons.mpr ⟨fun again => (mem_fresh.mp again).2 List.mem_cons_self, ih _⟩

end

end Workctx.Search
