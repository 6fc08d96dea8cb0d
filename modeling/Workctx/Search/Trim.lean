import Mathlib.Algebra.Order.BigOperators.Group.List
import Mathlib.Algebra.Ring.Nat
import Mathlib.Data.List.Basic

/-! Items that are removed one after the other until a total fits its limit. -/

namespace Workctx.Search
open List
variable {α : Type}

def trim (cost : α → Nat) (limit : Int) : Int → List α → List α
  | _, [] => []
  | total, item :: rest => if total ≤ limit then [] else item :: trim cost limit (total - cost item) rest

def costs (cost : α → Nat) (items : List α) : Int := (items.map cost).sum

variable (cost : α → Nat)

theorem costs_nil : costs cost [] = 0 := rfl

theorem costs_cons (item : α) (items : List α) : costs cost (item :: items) = cost item + costs cost items := by
  unfold costs
  rw [map_cons, sum_cons, Int.natCast_add]

theorem costs_append (front back : List α) : costs cost (front ++ back) = costs cost front + costs cost back := by
  unfold costs
  rw [map_append, sum_append, Int.natCast_add]

theorem costs_nonneg (items : List α) : 0 ≤ costs cost items := Int.natCast_nonneg _

variable {cost}

theorem trim_isPrefix (limit total : Int) (items : List α) : trim cost limit total items <+: items := by
  induction items generalizing total with
  | nil => exact prefix_rfl
  | cons item rest ih =>
    unfold trim
    split
    · exact nil_prefix
    · exact cons_prefix_cons.mpr ⟨rfl, ih _⟩

theorem trim_fits (limit total : Int) (items : List α) :
    total - costs cost (trim cost limit total items) ≤ limit ∨ trim cost limit total items = items := by
  induction items generalizing total with
  | nil => exact .inr rfl
  | cons item rest ih =>
    unfold trim
    split
    · next fits =>
      left
      rw [costs_nil]
      omega
    · rcases ih (total - cost item) with fits | all
      · left
        rw [costs_cons]
        omega
      · right
        rw [all]

theorem trim_shortest {limit total : Int} {items : List α} {count : Nat} (fewer : count < (trim cost limit total items).length) :
    limit < total - costs cost (items.take count) := by
  induction items generalizing total count with
  | nil => exact absurd fewer (Nat.not_lt_zero count)
  | cons item rest ih =>
    unfold trim at fewer
    split at fewer
    · exact absurd fewer (Nat.not_lt_zero count)
    · next beyond =>
      cases count with
      | zero =>
        rw [take_zero, costs_nil]
        omega
      | succ count =>
        have later := ih (Nat.lt_of_succ_lt_succ fewer)
        rw [take_succ_cons, costs_cons]
        omega

theorem trim_mono {limit greater : Int} (le : limit ≤ greater) (total : Int) (items : List α) :
    trim cost greater total items <+: trim cost limit total items := by
  induction items generalizing total with
  | nil => exact prefix_rfl
  | cons item rest ih =>
    unfold trim
    by_cases fits : total ≤ greater
    · rw [if_pos fits]
      exact nil_prefix
    · rw [if_neg fits, if_neg (by omega)]
      exact cons_prefix_cons.mpr ⟨rfl, ih _⟩

theorem filter_removed {β : Type} [DecidableEq β] {key : α → β} {removed rest : List α} (nodup : ((removed ++ rest).map key).Nodup) :
    (removed ++ rest).filter (fun item => decide (key item ∉ removed.map key)) = rest := by
  rw [map_append] at nodup
  obtain ⟨_, _, disjoint⟩ := nodup_append.mp nodup
  have front : removed.filter (fun item => decide (key item ∉ removed.map key)) = [] := by
    rw [filter_eq_nil_iff]
    intro item member kept
    exact of_decide_eq_true kept (mem_map_of_mem member)
  have back : rest.filter (fun item => decide (key item ∉ removed.map key)) = rest := by
    rw [filter_eq_self]
    intro item member
    refine decide_eq_true fun inside => ?_
    exact disjoint _ inside _ (mem_map_of_mem member) rfl
  rw [filter_append, front, back, nil_append]

end Workctx.Search
