import Mathlib.Data.List.Dedup
import Mathlib.Data.List.Sort

/-! Lists sorted by a key, and sets given as sorted lists. -/

namespace Workctx.Search
open List
variable {α κ : Type} [LinearOrder κ]

def sortedBy (key : α → κ) (items : List α) : List α := items.mergeSort fun one two => decide (key one ≤ key two)

def sortedSet (items : List κ) : List κ := sortedBy id items.dedup

theorem sortedBy_perm (key : α → κ) (items : List α) : (sortedBy key items).Perm items := mergeSort_perm _ _

theorem mem_sortedBy {key : α → κ} {items : List α} {item : α} : item ∈ sortedBy key items ↔ item ∈ items :=
  (sortedBy_perm key items).mem_iff

theorem sortedBy_sorted (key : α → κ) (items : List α) : (sortedBy key items).Pairwise fun one two => key one ≤ key two := by
  have sorted : (sortedBy key items).Pairwise fun one two => decide (key one ≤ key two) = true := by
    apply pairwise_mergeSort
    · intro one two three first second
      rw [decide_eq_true_eq] at *
      exact first.trans second
    · intro one two
      rw [Bool.or_eq_true, decide_eq_true_eq, decide_eq_true_eq]
      exact le_total (key one) (key two)
  exact sorted.imp fun less => of_decide_eq_true less

/-- The order does not depend on how the items are given, where no two of them have one key. -/
theorem sortedBy_congr {key : α → κ} {one two : List α} (same : one.Perm two)
    (distinct : ∀ first ∈ one, ∀ second ∈ one, key first = key second → first = second) : sortedBy key one = sortedBy key two := by
  have permuted : (sortedBy key one).Perm (sortedBy key two) := (sortedBy_perm key one).trans (same.trans (sortedBy_perm key two).symm)
  refine permuted.eq_of_pairwise ?_ (sortedBy_sorted key one) (sortedBy_sorted key two)
  intro first second member also less more
  exact distinct first (mem_sortedBy.mp member) second (same.mem_iff.mpr (mem_sortedBy.mp also)) (le_antisymm less more)

theorem map_sortedBy_congr (key : α → κ) {one two : List α} (same : one.Perm two) :
    (sortedBy key one).map key = (sortedBy key two).map key := by
  have permuted : (sortedBy key one).Perm (sortedBy key two) := (sortedBy_perm key one).trans (same.trans (sortedBy_perm key two).symm)
  apply (permuted.map key).eq_of_pairwise (fun _ _ _ _ less more => le_antisymm less more)
  · exact pairwise_map.mpr (sortedBy_sorted key one)
  · exact pairwise_map.mpr (sortedBy_sorted key two)

theorem map_congr_of_map {β γ : Type} {key : α → β} {value : α → γ} (determined : ∀ one two, key one = key two → value one = value two)
    {one two : List α} (same : one.map key = two.map key) : one.map value = two.map value := by
  induction one generalizing two with
  | nil =>
    rw [map_nil, eq_comm, map_eq_nil_iff] at same
    rw [same]
  | cons first rest ih =>
    cases two with
    | nil => cases same
    | cons other others =>
      rw [map_cons, map_cons, List.cons.injEq] at same
      rw [map_cons, map_cons, determined first other same.1, ih same.2]

theorem mem_sortedSet {items : List κ} {item : κ} : item ∈ sortedSet items ↔ item ∈ items := by
  unfold sortedSet
  rw [mem_sortedBy, mem_dedup]

theorem sortedSet_nodup (items : List κ) : (sortedSet items).Nodup :=
  (sortedBy_perm id items.dedup).nodup_iff.mpr (nodup_dedup items)

theorem sortedSet_congr {one two : List κ} (same : ∀ item, item ∈ one ↔ item ∈ two) : sortedSet one = sortedSet two := by
  apply sortedBy_congr
  · refine (perm_ext_iff_of_nodup (nodup_dedup one) (nodup_dedup two)).mpr fun item => ?_
    rw [mem_dedup, mem_dedup, same]
  · exact fun _ _ _ _ equal => equal

def leastBy (key : α → κ) (items : List α) : Option α :=
  items.foldl (fun best item => some (best.elim item fun kept => if key item < key kept then item else kept)) none

theorem leastBy_none {key : α → κ} {items : List α} : leastBy key items = none ↔ items = [] := by
  unfold leastBy
  cases items with
  | nil => simp
  | cons first rest =>
    rw [foldl_cons]
    have kept : ∀ (items : List α) (best : α), ∃ least, items.foldl (fun best item =>
        some (best.elim item fun kept => if key item < key kept then item else kept)) (some best) = some least := by
      intro items
      induction items with
      | nil => exact fun best => ⟨best, rfl⟩
      | cons item items ih => exact fun best => ih _
    obtain ⟨least, found⟩ := kept rest first
    simp [found]

/-! The first item of each key. -/

section
variable {ι : Type} [DecidableEq ι]

def keepFirst (key : α → ι) (known : List α) (item : α) : List α :=
  if known.any fun other => decide (key other = key item) then known else known ++ [item]

def firstBy (key : α → ι) (items : List α) : List α := items.foldl (keepFirst key) []

variable {key : α → ι} {known : List α} {item : α}

theorem keepFirst_old (old : ∃ other ∈ known, key other = key item) : keepFirst key known item = known := by
  unfold keepFirst
  rw [if_pos]
  simpa using old

theorem keepFirst_new (new : ¬∃ other ∈ known, key other = key item) :
    keepFirst key known item = known ++ [item] := by
  unfold keepFirst
  rw [if_neg]
  simpa using new

theorem mem_keepFirst {other : α} (member : other ∈ keepFirst key known item) :
    other ∈ known ∨ other = item := by
  unfold keepFirst at member
  split at member
  · exact .inl member
  · rw [mem_append, mem_singleton] at member
    exact member

theorem keys_keepFirst {wanted : ι} :
    (∃ other ∈ keepFirst key known item, key other = wanted) ↔ (∃ other ∈ known, key other = wanted) ∨ key item = wanted := by
  unfold keepFirst
  split
  · next seen =>
    simp only [any_eq_true, decide_eq_true_eq] at seen
    obtain ⟨other, member, same⟩ := seen
    constructor
    · exact .inl
    · rintro (held | rfl)
      · exact held
      · exact ⟨other, member, same⟩
  · simp only [mem_append, mem_singleton]
    constructor
    · rintro ⟨other, member | rfl, same⟩
      · exact .inl ⟨other, member, same⟩
      · exact .inr same
    · rintro (⟨other, member, same⟩ | same)
      · exact ⟨other, .inl member, same⟩
      · exact ⟨item, .inr rfl, same⟩

theorem nodup_keepFirst (nodup : (known.map key).Nodup) :
    ((keepFirst key known item).map key).Nodup := by
  unfold keepFirst
  split
  · exact nodup
  · next fresh =>
    simp only [any_eq_true, decide_eq_true_eq, not_exists, not_and] at fresh
    rw [map_append, map_singleton, nodup_append]
    refine ⟨nodup, nodup_singleton _, ?_⟩
    intro one member two alone
    obtain ⟨other, inside, rfl⟩ := mem_map.mp member
    rw [mem_singleton.mp alone]
    exact fresh other inside

theorem foldl_keepFirst {key : α → ι} (items known : List α) :
    (∀ other ∈ items.foldl (keepFirst key) known, other ∈ known ∨ other ∈ items) ∧
      (∀ wanted, (∃ other ∈ items.foldl (keepFirst key) known, key other = wanted) ↔
        (∃ other ∈ known, key other = wanted) ∨ ∃ other ∈ items, key other = wanted) ∧
      ((known.map key).Nodup → ((items.foldl (keepFirst key) known).map key).Nodup) := by
  induction items generalizing known with
  | nil => simp
  | cons item rest ih =>
    obtain ⟨members, keys, nodup⟩ := ih (keepFirst key known item)
    rw [foldl_cons]
    refine ⟨?_, ?_, fun before => nodup (nodup_keepFirst before)⟩
    · intro other member
      rcases members other member with held | later
      · rcases mem_keepFirst held with old | rfl
        · exact .inl old
        · exact .inr mem_cons_self
      · exact .inr (mem_cons_of_mem item later)
    · intro wanted
      rw [keys, keys_keepFirst, or_assoc, exists_mem_cons_iff]

theorem mem_foldl_keepFirst (items : List α) {other : α} (member : other ∈ known) :
    other ∈ items.foldl (keepFirst key) known := by
  induction items generalizing known with
  | nil => exact member
  | cons item rest ih =>
    apply ih
    unfold keepFirst
    split
    · exact member
    · exact mem_append_left [item] member

theorem firstBy_keys {items : List α} {wanted : ι} :
    (∃ item ∈ firstBy key items, key item = wanted) ↔ ∃ item ∈ items, key item = wanted := by
  have keys := (@foldl_keepFirst _ _ _ key items []).2.1 wanted
  unfold firstBy
  rw [keys]
  simp

theorem firstBy_nodup (items : List α) : ((firstBy key items).map key).Nodup := (foldl_keepFirst items []).2.2 nodup_nil

theorem find?_foldl_keepFirst (items known : List α) (wanted : ι) :
    (items.foldl (keepFirst key) known).find? (fun item => decide (key item = wanted)) =
      (known ++ items).find? fun item => decide (key item = wanted) := by
  induction items generalizing known with
  | nil => rw [foldl_nil, append_nil]
  | cons item rest ih =>
    rw [foldl_cons, ih]
    by_cases old : ∃ other ∈ known, key other = key item
    · rw [keepFirst_old old, find?_append, find?_append, find?_cons]
      by_cases here : key item = wanted
      · obtain ⟨other, member, same⟩ := old
        obtain ⟨found, at_⟩ := Option.isSome_iff_exists.mp
          (find?_isSome (p := fun item => decide (key item = wanted)).mpr ⟨other, member, decide_eq_true (same.trans here)⟩)
        rw [at_, Option.some_or, Option.some_or]
      · rw [decide_eq_false here]
    · rw [keepFirst_new old, append_assoc, singleton_append]

theorem mem_firstBy {items : List α} {item : α} :
    item ∈ firstBy key items ↔ items.find? (fun other => decide (key other = key item)) = some item := by
  have first := @find?_foldl_keepFirst _ _ _ key items [] (key item)
  rw [nil_append] at first
  rw [← first]
  refine ⟨fun member => ?_, mem_of_find?_eq_some⟩
  obtain ⟨found, at_⟩ := Option.isSome_iff_exists.mp
    (find?_isSome (p := fun other => decide (key other = key item)).mpr ⟨item, member, decide_eq_true rfl⟩)
  have equal : key found = key item := of_decide_eq_true (find?_some (p := fun other => decide (key other = key item)) at_)
  exact at_.trans (congrArg some (inj_on_of_nodup_map (firstBy_nodup items) (mem_of_find?_eq_some at_) member equal))

/-- Two lists with one first item under each key. -/
theorem firstBy_perm {items others : List α} (same : ∀ wanted, items.find? (fun item => decide (key item = wanted)) =
    others.find? fun item => decide (key item = wanted)) : (firstBy key items).Perm (firstBy key others) :=
  (perm_ext_iff_of_nodup (firstBy_nodup items).of_map (firstBy_nodup others).of_map).mpr fun item => by
    rw [mem_firstBy, mem_firstBy, same]

end
end Workctx.Search
