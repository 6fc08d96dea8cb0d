import Mathlib.Data.List.Nodup
import Mathlib.Logic.Function.Basic

/-! Writes on a store, one behind the other. On distinct keys every write is what is left. -/

namespace Workctx.Durable
variable {κ β : Type} [DecidableEq κ] {store after : κ → Option β} {writes : List (κ × Option β)} {write : κ × Option β} {key : κ}

/-- What a store holds behind the writes; a write of nothing removes its key. -/
def overwrite (store : κ → Option β) (writes : List (κ × Option β)) : κ → Option β :=
  writes.foldl (fun store write => Function.update store write.1 write.2) store

theorem overwrite_other (outside : key ∉ writes.map Prod.fst) : overwrite store writes key = store key := by
  induction writes generalizing store with
  | nil => rfl
  | cons write rest ih =>
    rw [List.map_cons, List.mem_cons, not_or] at outside
    exact (ih outside.2).trans (Function.update_of_ne outside.1 _ _)

theorem overwrite_mem (distinct : (writes.map Prod.fst).Nodup) (member : write ∈ writes) :
    overwrite store writes write.1 = write.2 := by
  induction writes generalizing store with
  | nil => cases member
  | cons first rest ih =>
    obtain ⟨apart, distinct⟩ := List.nodup_cons.mp distinct
    rcases List.mem_cons.mp member with rfl | later
    · exact (overwrite_other apart).trans (Function.update_self _ _ _)
    · exact ih distinct later

theorem eq_overwrite (distinct : (writes.map Prod.fst).Nodup) (written : ∀ write ∈ writes, after write.1 = write.2)
    (elsewhere : ∀ key ∉ writes.map Prod.fst, after key = store key) : after = overwrite store writes := by
  funext key
  by_cases inside : key ∈ writes.map Prod.fst
  · obtain ⟨write, member, rfl⟩ := List.mem_map.mp inside
    exact (written write member).trans (overwrite_mem distinct member).symm
  · exact (elsewhere key inside).trans (overwrite_other inside).symm

end Workctx.Durable
