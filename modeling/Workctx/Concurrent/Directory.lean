import Mathlib.Data.List.Basic

/-! A directory: entries under their names. -/

namespace Workctx.Concurrent
open List

abbrev Directory (κ α : Type) := List (κ × α)

namespace Directory
variable {κ α : Type} [DecidableEq κ]

def get (directory : Directory κ α) (name : κ) : Option α := directory.lookup name

def erase (directory : Directory κ α) (name : κ) : Directory κ α := directory.filter fun entry => entry.1 != name

def put (directory : Directory κ α) (name : κ) (content : α) : Directory κ α := (name, content) :: directory.erase name

theorem get_erase_self (directory : Directory κ α) (name : κ) : (directory.erase name).get name = none := by
  unfold get erase
  rw [lookup_eq_none_iff]
  intro entry member
  have kept := bne_iff_ne.mp (mem_filter.mp member).2
  exact bne_iff_ne.mpr fun same => kept same.symm

variable {directory : Directory κ α}

theorem get_erase_of_ne {name other : κ} (apart : other ≠ name) :
    (directory.erase name).get other = directory.get other := by
  unfold get erase
  induction directory with
  | nil => rfl
  | cons entry rest ih =>
    obtain ⟨first, content⟩ := entry
    by_cases here : first = name
    · subst here
      rw [filter_cons_of_neg (by simp), ih, lookup_cons, beq_false_of_ne apart]
    · rw [filter_cons_of_pos (by simpa using here), lookup_cons, lookup_cons, ih]

@[simp] theorem get_put_self (directory : Directory κ α) (name : κ) (content : α) :
    (directory.put name content).get name = some content := lookup_cons_self

theorem get_put_of_ne {name other : κ} {content : α} (apart : other ≠ name) :
    (directory.put name content).get other = directory.get other := by
  have below : (directory.erase name).get other = directory.get other := get_erase_of_ne apart
  unfold put get
  rw [lookup_cons, beq_false_of_ne apart]
  exact below

theorem mem_of_get {name : κ} {content : α} (found : directory.get name = some content) :
    (name, content) ∈ directory := by
  obtain ⟨front, back, split, _⟩ := lookup_eq_some_iff.mp found
  rw [split]
  exact mem_append_right _ mem_cons_self

theorem get_eq_none {name : κ} : directory.get name = none ↔ name ∉ directory.map Prod.fst := by
  unfold get
  rw [lookup_eq_none_iff]
  constructor
  · intro absent member
    obtain ⟨entry, inside, same⟩ := mem_map.mp member
    exact bne_iff_ne.mp (absent entry inside) same.symm
  · intro absent entry inside
    exact bne_iff_ne.mpr fun same => absent (mem_map.mpr ⟨entry, inside, same.symm⟩)

section
variable (unique : (directory.map Prod.fst).Nodup)
include unique

theorem get_of_mem {name : κ} {content : α}
    (member : (name, content) ∈ directory) : directory.get name = some content := by
  induction directory with
  | nil => cases member
  | cons entry rest ih =>
    obtain ⟨first, other⟩ := entry
    rw [map_cons, nodup_cons] at unique
    unfold get
    rw [lookup_cons]
    cases mem_cons.mp member with
    | inl here =>
      cases here
      rw [beq_self_eq_true]
    | inr later =>
      have apart : name ≠ first := by
        intro same
        exact unique.1 (mem_map.mpr ⟨(name, content), later, same⟩)
      rw [beq_false_of_ne apart]
      exact ih unique.2 later

theorem nodup_erase (name : κ) :
    ((directory.erase name).map Prod.fst).Nodup := unique.sublist (filter_sublist.map Prod.fst)

theorem nodup_put (name : κ) (content : α) :
    ((directory.put name content).map Prod.fst).Nodup := by
  have absent := get_eq_none.mp (get_erase_self directory name)
  exact nodup_cons.mpr ⟨absent, nodup_erase unique name⟩

end

end Directory
end Workctx.Concurrent
