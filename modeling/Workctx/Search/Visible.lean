import Workctx.Search.Sorted

/-! Reads of a table of which some rows are visible: tables that agree on the visible rows are read alike. -/

namespace Workctx.Search
variable {α κ ι : Type} {visible wanted : α → Bool} {one two : List α}

def Agree (visible : α → Bool) (one two : List α) : Prop := ∀ row, visible row = true → (row ∈ one ↔ row ∈ two)

theorem find_visible [DecidableEq ι] {key : α → ι} (unique : (one.map key).Nodup) {value : ι} {row : α} :
    (one.find? fun row => decide (key row = value)).filter visible = some row ↔ row ∈ one ∧ key row = value ∧ visible row = true := by
  rw [Option.filter_eq_some_iff]
  constructor
  · intro ⟨found, shown⟩
    exact ⟨List.mem_of_find?_eq_some found, by simpa using List.find?_some found, shown⟩
  · intro ⟨member, same, shown⟩
    refine ⟨?_, shown⟩
    cases found : one.find? fun row => decide (key row = value) with
    | none => exact absurd same (by simpa using List.find?_eq_none.mp found row member)
    | some other =>
      have equal : key other = value := by simpa using List.find?_some found
      rw [List.inj_on_of_nodup_map unique (List.mem_of_find?_eq_some found) member (equal.trans same.symm)]

theorem find_agree [DecidableEq ι] {key : α → ι} (unique : (one.map key).Nodup) (unique' : (two.map key).Nodup)
    (agree : Agree visible one two) (value : ι) :
    (one.find? fun row => decide (key row = value)).filter visible =
      (two.find? fun row => decide (key row = value)).filter visible := by
  ext row
  rw [find_visible unique, find_visible unique']
  constructor
  · intro ⟨member, same, shown⟩
    exact ⟨(agree row shown).mp member, same, shown⟩
  · intro ⟨member, same, shown⟩
    exact ⟨(agree row shown).mpr member, same, shown⟩

variable [LinearOrder κ]

theorem mem_sorted_visible {order : α → κ} {row : α} :
    row ∈ (sortedBy order (one.filter wanted)).filter visible ↔ (row ∈ one ∧ wanted row = true) ∧ visible row = true := by
  rw [List.mem_filter, mem_sortedBy, List.mem_filter]

theorem sorted_agree {order : α → κ} (unique : (one.map order).Nodup) (unique' : (two.map order).Nodup)
    (agree : Agree visible one two) (wanted : α → Bool) :
    (sortedBy order (one.filter wanted)).filter visible = (sortedBy order (two.filter wanted)).filter visible := by
  have nodup : ∀ {table : List α}, (table.map order).Nodup → ((sortedBy order (table.filter wanted)).filter visible).Nodup := by
    intro table distinct
    have rows : table.Nodup := List.Nodup.of_map order distinct
    exact ((sortedBy_perm order _).nodup_iff.mpr (rows.filter _)).filter _
  have sorted : ∀ {table : List α}, ((sortedBy order (table.filter wanted)).filter visible).Pairwise fun one two => order one ≤ order two :=
    fun {table} => (sortedBy_sorted order _).filter _
  have same : ((sortedBy order (one.filter wanted)).filter visible).Perm ((sortedBy order (two.filter wanted)).filter visible) := by
    refine (List.perm_ext_iff_of_nodup (nodup unique) (nodup unique')).mpr fun row => ?_
    rw [mem_sorted_visible, mem_sorted_visible]
    constructor
    · intro ⟨⟨member, picked⟩, shown⟩
      exact ⟨⟨(agree row shown).mp member, picked⟩, shown⟩
    · intro ⟨⟨member, picked⟩, shown⟩
      exact ⟨⟨(agree row shown).mpr member, picked⟩, shown⟩
  refine same.eq_of_pairwise (fun first second member also less more => ?_) sorted sorted
  have here := (mem_sorted_visible.mp member).1.1
  have there := mem_sorted_visible.mp also
  exact List.inj_on_of_nodup_map unique here ((agree second there.2).mpr there.1.1) (le_antisymm less more)

end Workctx.Search
