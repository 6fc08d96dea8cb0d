import Workctx.Retrieval.Budget
import Workctx.Retrieval.Order
import Mathlib.Data.List.Flatten

/-! A context pack keeps or lists each of its entries, and removes no more of them than its budget demands. -/

namespace Workctx.Retrieval
open Workctx.Domain Workctx.Search List

/-! Ranked entries. -/

theorem Entry.label_key (entry : Entry) : entry.ranking.key = entryKey entry.label.1 entry.label.2 := entry.keyed

theorem deduped_labels (entries : List Entry) : ((deduped entries).map Entry.label).Nodup := by
  have keys : ((deduped entries).map fun entry => entry.ranking.key).Nodup := firstBy_nodup entries
  have through : (deduped entries).map (fun entry => entry.ranking.key) =
      ((deduped entries).map Entry.label).map fun label => entryKey label.1 label.2 := by
    rw [map_map]
    exact map_congr_left fun entry _ => entry.label_key
  rw [through] at keys
  exact keys.of_map _

theorem allEntries_filter (scored : List RankedEntry) :
    (allEntries fun name => sortedBy RankedEntry.rankOrder (scored.filter fun entry => decide (entry.name = name))).Perm scored := by
  have split : ∀ names : List PackSectionName, names.Nodup →
      (names.flatMap fun name => sortedBy RankedEntry.rankOrder (scored.filter fun entry => decide (entry.name = name))).Perm
        (scored.filter fun entry => decide (entry.name ∈ names)) := by
    intro names
    induction names with
    | nil => simp
    | cons name rest ih =>
      intro nodup
      obtain ⟨fresh, others⟩ := nodup_cons.mp nodup
      rw [flatMap_cons]
      have parts := (filter_append_perm (fun entry : RankedEntry => decide (entry.name = name))
        (scored.filter fun entry => decide (entry.name ∈ name :: rest)))
      refine (List.Perm.append (sortedBy_perm _ _) (ih others)).trans (List.Perm.trans (List.Perm.of_eq ?_) parts)
      rw [filter_filter, filter_filter]
      congr 1
      · apply filter_congr
        intro entry _
        by_cases here : entry.name = name <;> simp [here]
      · apply filter_congr
        intro entry _
        by_cases here : entry.name = name
        · simp [here, fresh]
        · simp [here]
  have whole : (scored.filter fun entry => decide (entry.name ∈ sectionNames)) = scored := by
    rw [filter_eq_self]
    intro entry _
    cases entry.name <;> decide
  have parts := split sectionNames (by decide)
  rw [whole] at parts
  exact parts

structure Grouped (entries : List Entry) (grouped : PackSectionName → List RankedEntry) : Prop where
  own : ∀ name, ∀ entry ∈ grouped name, entry.name = name
  outside : grouped .focalEntity = []
  orders : ((allEntries grouped).map RankedEntry.rankOrder).Nodup
  labels : ((allEntries grouped).map RankedEntry.label).Perm ((deduped entries).map Entry.label)

variable {alphabet : Alphabet} {query : Option String} {entries : List Entry} {grouped : PackSectionName → List RankedEntry}

theorem scoreOf_some {ranked : List RankedCandidate} {key : String} {scored : RankedCandidate × Nat}
    (found : scoreOf ranked key = some scored) : scored.1.candidate.key = key ∧ ranked[scored.2]? = some scored.1 := by
  have known := mem_of_find?_eq_some found
  have named := find?_some found
  refine ⟨of_decide_eq_true named, ?_⟩
  exact mem_zipIdx_iff_getElem?.mp known

theorem grouped_of_rankAndGroup (done : rankAndGroup alphabet query entries = .ok grouped) : Grouped entries grouped := by
  obtain ⟨ranked, placed, rest⟩ := bind_ok.mp done
  cases rest
  obtain ⟨permuted, _, _⟩ := rank_sound placed
  have found : ∀ entry ∈ deduped entries, ∃ scored, scoreOf ranked entry.ranking.key = some scored := by
    intro entry member
    have inside : entry.ranking ∈ ranked.map RankedCandidate.candidate := permuted.mem_iff.mpr (mem_map.mpr ⟨entry, member, rfl⟩)
    obtain ⟨item, known, same⟩ := mem_map.mp inside
    obtain ⟨index, at_⟩ := mem_iff_getElem?.mp known
    refine Option.isSome_iff_exists.mp (find?_isSome.mpr ⟨(item, index), mem_zipIdx_iff_getElem?.mpr at_, ?_⟩)
    exact decide_eq_true (congrArg RankingCandidate.key same)
  have permuted := allEntries_filter ((deduped entries).filterMap fun entry => (scoreOf ranked entry.ranking.key).map (rankedEntry entry))
  constructor
  · intro name entry member
    rw [mem_sortedBy, mem_filter] at member
    exact of_decide_eq_true member.2
  · have none : ((deduped entries).filterMap fun entry => (scoreOf ranked entry.ranking.key).map (rankedEntry entry)).filter
        (fun entry => decide (entry.name = .focalEntity)) = [] := by
      rw [filter_eq_nil_iff]
      intro entry member
      obtain ⟨source, _, made⟩ := mem_filterMap.mp member
      obtain ⟨scored, _, rfl⟩ := Option.map_eq_some_iff.mp made
      exact fun focal => source.outside (of_decide_eq_true focal)
    exact List.Perm.eq_nil (none ▸ sortedBy_perm _ _)
  · -- Two entries with one order would be of one candidate.
    rw [(permuted.map RankedEntry.rankOrder).nodup_iff, nodup_iff_pairwise_ne, pairwise_map, pairwise_filterMap]
    have keys : ((deduped entries).map fun entry => entry.ranking.key).Nodup := firstBy_nodup entries
    apply (pairwise_map.mp (nodup_iff_pairwise_ne.mp keys)).imp
    intro one two differ first made second also same
    obtain ⟨scored, placed, rfl⟩ := Option.map_eq_some_iff.mp made
    obtain ⟨other, stands, rfl⟩ := Option.map_eq_some_iff.mp also
    obtain ⟨key, at_⟩ := scoreOf_some placed
    obtain ⟨key', at_'⟩ := scoreOf_some stands
    have orders : scored.2 = other.2 := same
    rw [orders, at_'] at at_
    rw [← key, ← key', Option.some.inj at_] at differ
    exact differ rfl
  · refine (permuted.map RankedEntry.label).trans (List.Perm.of_eq ?_)
    rw [map_filterMap, ← filterMap_eq_map]
    apply filterMap_congr
    intro entry member
    obtain ⟨scored, some⟩ := found entry member
    rw [some]
    rfl

/-! Costs. -/

def unitsOf (entry : RankedEntry) : Nat := estimatePackItemUnits entry.item

theorem foldl_setCost {entries : List RankedEntry} {known : List ((PackSectionName × String) × Nat)}
    (nodup : (entries.map RankedEntry.label).Nodup) (fresh : ∀ entry ∈ entries, ∀ cost ∈ known, cost.1 ≠ entry.label) :
    entries.foldl setCost known = known ++ entries.map fun entry => (entry.label, unitsOf entry) := by
  induction entries generalizing known with
  | nil => rw [foldl_nil, map_nil, append_nil]
  | cons entry rest ih =>
    rw [map_cons, nodup_cons] at nodup
    have new : setCost known entry = known ++ [(entry.label, unitsOf entry)] := by
      unfold setCost
      rw [if_neg]
      · rfl
      · simp only [any_eq_true, decide_eq_true_eq, not_exists, not_and]
        exact fresh entry mem_cons_self
    have apart : ∀ other ∈ rest, ∀ cost ∈ known ++ [(entry.label, unitsOf entry)], cost.1 ≠ other.label := by
      intro other member cost listed same
      rcases mem_append.mp listed with old | here
      · exact fresh other (mem_cons_of_mem entry member) cost old same
      · rw [mem_singleton.mp here] at same
        exact nodup.1 (mem_map.mpr ⟨other, member, same.symm⟩)
    rw [foldl_cons, new, ih nodup.2 apart, append_assoc, map_cons, singleton_append]

variable {entry : RankedEntry} {state : Trimming} {requestedUnits : Int}

theorem costOf_mem {entries : List RankedEntry} (nodup : (entries.map RankedEntry.label).Nodup) (member : entry ∈ entries) :
    costOf (entries.foldl setCost []) entry = unitsOf entry := by
  rw [foldl_setCost nodup fun _ _ _ none => absurd none not_mem_nil, nil_append]
  have found : (entries.map fun entry => (entry.label, unitsOf entry)).find? (fun cost => decide (cost.1 = entry.label)) =
      some (entry.label, unitsOf entry) := by
    induction entries with
    | nil => cases member
    | cons first rest ih =>
      rw [map_cons, nodup_cons] at nodup
      rcases mem_cons.mp member with rfl | later
      · exact find?_cons_of_pos (decide_eq_true rfl)
      · have other : first.label ≠ entry.label := fun same => nodup.1 (same ▸ mem_map.mpr ⟨entry, later, rfl⟩)
        rw [map_cons, find?_cons_of_neg (by simpa using other)]
        exact ih nodup.2 later
  unfold costOf
  rw [found]
  rfl

/-! The loop removes what the trimming of the total removes. -/

def omittedItem (entry : RankedEntry) : OmittedItem := ⟨entry.name, entry.item.id, unitsOf entry, "budget_priority"⟩

theorem eraseP_order {entries : List RankedEntry} (nodup : (entries.map RankedEntry.rankOrder).Nodup) (order : Nat) :
    entries.eraseP (fun other => decide (other.rankOrder = order)) = entries.filter fun other => decide (other.rankOrder ≠ order) := by
  induction entries with
  | nil => rfl
  | cons entry rest ih =>
    rw [map_cons, nodup_cons] at nodup
    by_cases here : entry.rankOrder = order
    · have others : rest.filter (fun other => decide (other.rankOrder ≠ order)) = rest := by
        rw [filter_eq_self]
        intro other member
        refine decide_eq_true fun same => nodup.1 (mem_map.mpr ⟨other, member, ?_⟩)
        rw [same, here]
      simp only [eraseP_cons, filter_cons, here, decide_true, cond_true, ne_eq, not_true_eq_false, decide_false, Bool.false_eq_true,
        if_false]
      exact others.symm
    · simp only [eraseP_cons, filter_cons, here, decide_false, cond_false, ne_eq, not_false_eq_true, decide_true, if_true]
      rw [ih nodup.2]

/-- The entries that are retained differ in their order, and those still to be removed stand in their own sections. -/
structure Apart (retained : PackSectionName → List RankedEntry) (order : List RankedEntry) : Prop where
  nodup : ∀ name, ((retained name).map RankedEntry.rankOrder).Nodup
  own : ∀ entry ∈ order, ∀ name, ∀ other ∈ retained name, other.rankOrder = entry.rankOrder → name = entry.name

def without (retained : PackSectionName → List RankedEntry) (removed : List RankedEntry) (name : PackSectionName) : List RankedEntry :=
  (retained name).filter fun other => decide (other.rankOrder ∉ removed.map RankedEntry.rankOrder)

theorem dropEntry_retained {rest : List RankedEntry} {cost : RankedEntry → Nat}
    (apart : Apart state.retained (entry :: rest)) : (dropEntry cost state entry).retained = without state.retained [entry] := by
  funext name
  unfold dropEntry without
  dsimp only
  by_cases here : name = entry.name
  · rw [here, Function.update_self, eraseP_order (apart.nodup entry.name)]
    apply filter_congr
    intro other _
    simp
  · rw [Function.update_of_ne here, eq_comm, filter_eq_self]
    intro other member
    refine decide_eq_true fun inside => here ?_
    rw [map_singleton, mem_singleton] at inside
    exact apart.own entry mem_cons_self name other member inside

theorem without_cons (retained : PackSectionName → List RankedEntry) (entry : RankedEntry) (removed : List RankedEntry) :
    without (without retained [entry]) removed = without retained (entry :: removed) := by
  funext name
  unfold without
  rw [filter_filter]
  apply filter_congr
  intro other _
  simp only [map_cons, map_nil, mem_cons, not_mem_nil, or_false, not_or, Bool.decide_and]
  rw [Bool.and_comm]

theorem Apart.drop {rest : List RankedEntry} (cost : RankedEntry → Nat)
    (apart : Apart state.retained (entry :: rest)) : Apart (dropEntry cost state entry).retained rest := by
  rw [dropEntry_retained apart]
  constructor
  · exact fun name => (apart.nodup name).sublist (List.Sublist.map _ filter_sublist)
  · intro other member name held inside
    exact apart.own other (mem_cons_of_mem entry member) name held (mem_filter.mp inside).1

theorem dropEntries_spec {cost : RankedEntry → Nat} {order : List RankedEntry}
    (costs_eq : ∀ entry ∈ order, cost entry = unitsOf entry) (apart : Apart state.retained order) :
    let removed := trim unitsOf requestedUnits state.usedUnits order
    dropEntries cost requestedUnits state order = {
      retained := without state.retained removed
      usedUnits := state.usedUnits - costs unitsOf removed
      omitted := state.omitted ++ removed.map omittedItem
      omittedBySection := fun name => state.omittedBySection name + removed.countP fun entry => decide (entry.name = name) } := by
  have still : ∀ state : Trimming, state = {
      retained := without state.retained []
      usedUnits := state.usedUnits - costs unitsOf []
      omitted := state.omitted ++ [].map omittedItem
      omittedBySection := fun name => state.omittedBySection name + List.countP (fun entry : RankedEntry => decide (entry.name = name)) [] } := by
    intro state
    have kept : without state.retained [] = state.retained := by
      funext name
      unfold without
      simp
    rw [kept, costs_nil]
    simp
  induction order generalizing state with
  | nil => exact still state
  | cons entry rest ih =>
    unfold dropEntries trim
    by_cases fits : state.usedUnits ≤ requestedUnits
    · rw [if_pos fits, if_pos fits]
      exact still state
    · have used : (dropEntry cost state entry).usedUnits = state.usedUnits - unitsOf entry := by
        unfold dropEntry
        rw [costs_eq entry mem_cons_self]
      have later := ih (fun other member => costs_eq other (mem_cons_of_mem entry member)) (apart.drop cost)
      rw [if_neg fits, if_neg fits, later, used, dropEntry_retained apart, without_cons]
      dsimp only
      rw [costs_cons, map_cons]
      congr 1
      · omega
      · unfold dropEntry omittedItem
        rw [costs_eq entry mem_cons_self, append_assoc]
        rfl
      · funext name
        unfold dropEntry
        dsimp only
        rw [countP_cons]
        by_cases here : name = entry.name
        · rw [here, Function.update_self, decide_eq_true rfl, if_pos rfl]
          omega
        · rw [Function.update_of_ne here, if_neg (by simpa using Ne.symm here)]
          omega

/-! The report passes its checks. -/

/-- What the report counts is what was removed. -/
structure Sound (minimumUnits : Int) (state : Trimming) : Prop where
  items : ∀ omitted ∈ state.omitted, omitted.itemId ≠ "" ∧ 0 ≤ omitted.units ∧ omitted.reason ≠ ""
  counts : ∀ name, state.omittedBySection name = state.omitted.countP fun omitted => decide (omitted.name = name)
  minimum : minimumUnits ≤ state.usedUnits

theorem reportOf_valid {minimumUnits : Int} (sound : Sound minimumUnits state) (asked : 0 ≤ requestedUnits)
    (least : 0 ≤ minimumUnits) : (reportOf requestedUnits minimumUnits state).validate = .ok () := by
  have minimum := sound.minimum
  unfold BudgetAndTruncation.validate reportOf
  dsimp only
  simp only [constrain_bind_ok, decide_eq_true_eq]
  refine ⟨asked, by omega, least, le_max_left _ _, Int.natCast_nonneg _, bind_ok.mpr ⟨(), checkEach_ok.mpr ?_, ?_⟩⟩
  · intro omitted member
    obtain ⟨named, paid, reasoned⟩ := sound.items omitted member
    unfold OmittedItem.validate
    rw [constrain_bind_ok, constrain_bind_ok, bne_iff_ne, decide_eq_true_eq]
    exact ⟨named, paid, check_ok.mpr (bne_iff_ne.mpr reasoned)⟩
  · simp only [check_bind_ok, check_ok, decide_eq_true_eq, beq_iff_eq]
    refine ⟨minimum, trivial, trivial, trivial, ?_⟩
    cases state.omitted with
    | nil => rfl
    | cons omitted others => simp

theorem sum_counts (omitted : List OmittedItem) :
    (sectionNames.map fun name => omitted.countP fun item => decide (item.name = name)).sum = omitted.length := by
  induction omitted with
  | nil => rfl
  | cons item rest ih =>
    have one : (sectionNames.map fun name => if decide (item.name = name) = true then 1 else 0).sum = 1 := by
      cases item.name <;> rfl
    have parts : (fun name => (item :: rest).countP fun other => decide (other.name = name)) = fun name =>
        (rest.countP fun other => decide (other.name = name)) + if decide (item.name = name) = true then 1 else 0 := by
      funext name
      rw [countP_cons]
    rw [parts, sum_map_add, ih, one, length_cons]

theorem packOf_valid {focal : PackItem} {minimumUnits : Int} (sound : Sound minimumUnits state) :
    (packOf focal state (reportOf requestedUnits minimumUnits state)).validate = .ok () := by
  have counted : ∀ name, ((packOf focal state (reportOf requestedUnits minimumUnits state)).sections name).omittedCount =
      state.omitted.countP fun omitted => decide (omitted.name = name) := by
    intro name
    unfold packOf
    dsimp only
    rw [← sound.counts name]
    by_cases here : name = .focalEntity
    · rw [if_pos here, here]
    · rw [if_neg here]
  unfold ContextPackSections.validate
  rw [check_bind_ok]
  refine ⟨decide_eq_true rfl, bind_ok.mpr ⟨(), checkEach_ok.mpr ?_, ?_⟩⟩
  · intro name _
    exact check_ok.mpr (decide_eq_true (counted name))
  · rw [check_ok, decide_eq_true_eq]
    simp only [counted]
    exact congrArg Nat.cast (sum_counts state.omitted)

/-! The pack of a ranking. -/

def afterRemoval (grouped : PackSectionName → List RankedEntry) (focal : PackItem) (removed : List RankedEntry) : Trimming where
  retained := without grouped removed
  usedUnits := estimatePackItemUnits focal + costs unitsOf (allEntries grouped) - costs unitsOf removed
  omitted := removed.map omittedItem
  omittedBySection := fun name => removed.countP fun entry => decide (entry.name = name)

def removedFrom (grouped : PackSectionName → List RankedEntry) (focal : PackItem) (requestedUnits : Int) : List RankedEntry :=
  trim unitsOf requestedUnits (estimatePackItemUnits focal + costs unitsOf (allEntries grouped)) (removalOrder grouped)

theorem removalOrder_perm (grouped : PackSectionName → List RankedEntry) : (removalOrder grouped).Perm (allEntries grouped) :=
  sortedBy_perm removalKey (allEntries grouped)

theorem mem_allEntries {grouped : PackSectionName → List RankedEntry} {name : PackSectionName} (held : entry ∈ grouped name) :
    entry ∈ allEntries grouped := by
  have listed : name ∈ sectionNames := by cases name <;> decide
  exact mem_flatMap.mpr ⟨name, listed, held⟩

section
variable (lawful : Grouped entries grouped)
include lawful

theorem Grouped.mem_own {entry : RankedEntry} (member : entry ∈ allEntries grouped) :
    entry ∈ grouped entry.name := by
  obtain ⟨name, _, held⟩ := mem_flatMap.mp member
  rw [lawful.own name entry held]
  exact held

theorem Grouped.same_order {one two : RankedEntry} (known : one ∈ allEntries grouped)
    (also : two ∈ allEntries grouped) (same : one.rankOrder = two.rankOrder) : one = two :=
  inj_on_of_nodup_map lawful.orders known also same

theorem Grouped.labels_nodup : ((allEntries grouped).map RankedEntry.label).Nodup :=
  lawful.labels.nodup_iff.mpr (deduped_labels entries)

theorem Grouped.apart : Apart grouped (removalOrder grouped) := by
  constructor
  · intro name
    have listed : name ∈ sectionNames := by cases name <;> decide
    have part := (singleton_sublist.mpr listed).flatMap grouped
    rw [flatMap_singleton] at part
    exact lawful.orders.sublist (part.map RankedEntry.rankOrder)
  · intro entry member name other held same
    have known : entry ∈ allEntries grouped := (removalOrder_perm grouped).mem_iff.mp member
    rw [← lawful.same_order (mem_allEntries held) known same]
    exact (lawful.own name other held).symm

theorem dropEntries_grouped (focal : PackItem) (requestedUnits : Int) :
    let paid := (allEntries grouped).foldl setCost []
    dropEntries (costOf paid) requestedUnits ⟨grouped, estimatePackItemUnits focal + (paid.map Prod.snd).sum, [], fun _ => 0⟩
      (removalOrder grouped) = afterRemoval grouped focal (removedFrom grouped focal requestedUnits) := by
  have total : ((((allEntries grouped).foldl setCost []).map Prod.snd).sum : Int) = costs unitsOf (allEntries grouped) := by
    rw [foldl_setCost lawful.labels_nodup fun _ _ _ none => absurd none not_mem_nil, nil_append, map_map]
    rfl
  have paid : ∀ entry ∈ removalOrder grouped, costOf ((allEntries grouped).foldl setCost []) entry = unitsOf entry := by
    intro entry member
    exact costOf_mem lawful.labels_nodup ((removalOrder_perm grouped).mem_iff.mp member)
  dsimp only
  rw [dropEntries_spec paid lawful.apart]
  dsimp only
  rw [total]
  unfold afterRemoval removedFrom
  simp only [nil_append, Nat.zero_add]

end

structure Compacted (full minimal : PackItem) (state : Trimming) (focal : PackItem) (after : Trimming) : Prop where
  chosen : focal = full ∨ focal = minimal
  retained : after.retained = state.retained
  used : after.usedUnits = state.usedUnits - estimatePackItemUnits full + estimatePackItemUnits focal
  omitted : ∃ extra : List OmittedItem, after.omitted = state.omitted ++ extra ∧
    (∀ item ∈ extra, item = ⟨.focalEntity, full.id, estimatePackItemUnits full - estimatePackItemUnits minimal, "focal_details_compacted"⟩) ∧
    ∀ name, after.omittedBySection name = state.omittedBySection name + extra.countP fun item => decide (item.name = name)

theorem compactFocal_compacted (full minimal : PackItem) (requestedUnits : Int) (state : Trimming) :
    Compacted full minimal state (compactFocal full minimal requestedUnits state).1 (compactFocal full minimal requestedUnits state).2 := by
  unfold compactFocal
  split
  · constructor
    · exact .inr rfl
    · rfl
    · dsimp only
      omega
    · refine ⟨_, rfl, fun item member => mem_singleton.mp member, ?_⟩
      intro name
      dsimp only
      rw [countP_singleton]
      by_cases here : name = .focalEntity
      · rw [here, Function.update_self, decide_eq_true rfl, if_pos rfl]
      · rw [Function.update_of_ne here, if_neg (by simpa using Ne.symm here), Nat.add_zero]
  · constructor
    · exact .inl rfl
    · rfl
    · dsimp only
      omega
    · exact ⟨[], (append_nil _).symm, forall_mem_nil _, fun _ => rfl⟩

theorem costs_drop (grouped : PackSectionName → List RankedEntry) (count : Nat) :
    costs unitsOf (allEntries grouped) - costs unitsOf ((removalOrder grouped).take count) = costs unitsOf ((removalOrder grouped).drop count) := by
  have all : costs unitsOf (removalOrder grouped) = costs unitsOf (allEntries grouped) := by
    unfold costs
    rw [((removalOrder_perm grouped).map unitsOf).sum_nat]
  have parts := costs_append unitsOf ((removalOrder grouped).take count) ((removalOrder grouped).drop count)
  rw [take_append_drop, all] at parts
  omega

theorem afterRemoval_used (grouped : PackSectionName → List RankedEntry) (full : PackItem) (count : Nat) :
    (afterRemoval grouped full ((removalOrder grouped).take count)).usedUnits =
      estimatePackItemUnits full + costs unitsOf ((removalOrder grouped).drop count) := by
  have left := costs_drop grouped count
  unfold afterRemoval
  dsimp only
  omega

theorem afterRemoval_sound (grouped : PackSectionName → List RankedEntry) {full minimal : PackItem} (count : Nat)
    (least : estimatePackItemUnits minimal ≤ estimatePackItemUnits full) :
    Sound (estimatePackItemUnits minimal) (afterRemoval grouped full ((removalOrder grouped).take count)) := by
  constructor
  · intro omitted member
    obtain ⟨entry, _, rfl⟩ := mem_map.mp member
    exact ⟨entry.item.named, Int.natCast_nonneg _, (by decide : "budget_priority" ≠ "")⟩
  · intro name
    unfold afterRemoval
    rw [countP_map]
    rfl
  · have left := costs_nonneg unitsOf ((removalOrder grouped).drop count)
    rw [afterRemoval_used]
    omega

theorem Compacted.sound {full minimal focal : PackItem} {after : Trimming} (done : Compacted full minimal state focal after)
    (sound : Sound (estimatePackItemUnits minimal) state) (least : estimatePackItemUnits minimal ≤ estimatePackItemUnits full)
    (above : (estimatePackItemUnits full : Int) ≤ state.usedUnits) : Sound (estimatePackItemUnits minimal) after := by
  obtain ⟨extra, listed, focalOnly, counted⟩ := done.omitted
  constructor
  · intro omitted member
    rw [listed] at member
    rcases mem_append.mp member with old | new
    · exact sound.items omitted old
    · rw [focalOnly omitted new]
      exact ⟨full.named, by dsimp only; omega, (by decide : "focal_details_compacted" ≠ "")⟩
  · intro name
    rw [counted name, listed, countP_append, sound.counts name]
  · have used := done.used
    rcases done.chosen with whole | less
    · rw [whole] at used
      omega
    · rw [less] at used
      omega

/-! What a pack shows, and what it lists as omitted. -/

/-- What identifies the items that a pack shows, besides the focal one. -/
def retainedLabels (pack : ContextPackSections) : List (PackSectionName × String) :=
  (sectionNames.filter fun name => decide (name ≠ .focalEntity)).flatMap fun name =>
    (pack.sections name).items.map fun item => (name, item.id)

def omittedLabels (pack : ContextPackSections) : List (PackSectionName × String) :=
  (pack.budgetAndTruncation.omittedItems.filter fun omitted => decide (omitted.name ≠ .focalEntity)).map OmittedItem.label

def shownUnits (pack : ContextPackSections) : Nat :=
  (sectionNames.map fun name => ((pack.sections name).items.map estimatePackItemUnits).sum).sum

def unitsWithout (grouped : PackSectionName → List RankedEntry) (focal : PackItem) (count : Nat) : Int :=
  estimatePackItemUnits focal + costs unitsOf ((removalOrder grouped).drop count)

structure Budgeted (entries : List Entry) (grouped : PackSectionName → List RankedEntry) (focal : PackItem) (requestedUnits : Int)
    (pack : ContextPackSections) : Prop where
  report : pack.budgetAndTruncation.validate = .ok ()
  asked : pack.budgetAndTruncation.requestedUnits = requestedUnits
  conserved : (retainedLabels pack ++ omittedLabels pack).Perm ((deduped entries).map Entry.label)
  used : pack.budgetAndTruncation.usedUnits = shownUnits pack
  removed : ∃ count ≤ (removalOrder grouped).length, omittedLabels pack = ((removalOrder grouped).take count).map RankedEntry.label ∧
    (unitsWithout grouped focal count ≤ requestedUnits ∨ count = (removalOrder grouped).length) ∧
    ∀ fewer < count, requestedUnits < unitsWithout grouped focal fewer

section
variable {full minimal focal : PackItem} {requestedUnits minimumUnits : Int} {removed : List RankedEntry} {after : Trimming}

def otherSections : List PackSectionName := sectionNames.filter fun name => decide (name ≠ .focalEntity)

theorem sectionNames_eq : sectionNames = .focalEntity :: otherSections := by decide

theorem mem_otherSections {name : PackSectionName} : name ∈ otherSections ↔ name ≠ .focalEntity := by
  cases name <;> decide

section
variable (lawful : Grouped entries grouped)
include lawful

theorem Grouped.without_perm (count : Nat) :
    (sectionNames.flatMap (without grouped ((removalOrder grouped).take count))).Perm ((removalOrder grouped).drop count) := by
  have parts : sectionNames.flatMap (without grouped ((removalOrder grouped).take count)) = (allEntries grouped).filter
      fun entry => decide (entry.rankOrder ∉ ((removalOrder grouped).take count).map RankedEntry.rankOrder) := by
    unfold allEntries
    rw [filter_flatMap]
    rfl
  have orders : (((removalOrder grouped).take count ++ (removalOrder grouped).drop count).map RankedEntry.rankOrder).Nodup := by
    rw [take_append_drop]
    exact ((removalOrder_perm grouped).map RankedEntry.rankOrder).nodup_iff.mpr lawful.orders
  have left := filter_removed orders
  rw [take_append_drop] at left
  rw [parts, ← left]
  exact ((removalOrder_perm grouped).symm.filter _)

theorem Grouped.without_focal (removed : List RankedEntry) : without grouped removed .focalEntity = [] := by
  unfold without
  rw [lawful.outside, filter_nil]

theorem Grouped.outside_focal {entry : RankedEntry} (member : entry ∈ removalOrder grouped) :
    entry.name ≠ .focalEntity := by
  intro focal
  have held := lawful.mem_own ((removalOrder_perm grouped).mem_iff.mp member)
  rw [focal, lawful.outside] at held
  cases held

end

theorem packOf_other (budget : BudgetAndTruncation) {name : PackSectionName} (other : name ≠ .focalEntity) :
    ((packOf focal after budget).sections name).items = (after.retained name).map RankedEntry.item := by
  unfold packOf
  dsimp only
  rw [if_neg other]

theorem Compacted.omittedLabels (requestedUnits minimumUnits : Int) (lawful : Grouped entries grouped) (within : ∀ entry ∈ removed, entry ∈ removalOrder grouped)
    (done : Compacted full minimal (afterRemoval grouped full removed) focal after) :
    omittedLabels (packOf focal after (reportOf requestedUnits minimumUnits after)) = removed.map RankedEntry.label := by
  obtain ⟨extra, listed, focalOnly, _⟩ := done.omitted
  have none : extra.filter (fun omitted => decide (omitted.name ≠ .focalEntity)) = [] := by
    rw [filter_eq_nil_iff]
    intro item member
    rw [focalOnly item member]
    simp
  have some : (removed.map omittedItem).filter (fun omitted => decide (omitted.name ≠ .focalEntity)) = removed.map omittedItem := by
    rw [filter_eq_self]
    intro item member
    obtain ⟨entry, known, rfl⟩ := mem_map.mp member
    exact decide_eq_true (lawful.outside_focal (within entry known))
  unfold Retrieval.omittedLabels packOf reportOf
  dsimp only
  rw [listed, filter_append, none, append_nil]
  unfold afterRemoval
  rw [some, map_map]
  rfl

section
variable (lawful : Grouped entries grouped)
include lawful

theorem Compacted.retainedLabels (budget : BudgetAndTruncation)
    (done : Compacted full minimal (afterRemoval grouped full removed) focal after) :
    retainedLabels (packOf focal after budget) = (sectionNames.flatMap (without grouped removed)).map RankedEntry.label := by
  rw [sectionNames_eq, flatMap_cons, lawful.without_focal, nil_append, map_flatMap]
  unfold Retrieval.retainedLabels
  apply flatMap_congr
  intro name member
  rw [packOf_other budget (mem_otherSections.mp member), done.retained, map_map]
  apply map_congr_left
  intro entry held
  have own := lawful.own name entry (mem_filter.mp held).1
  exact Prod.ext own.symm rfl

theorem Compacted.shownUnits (budget : BudgetAndTruncation)
    (done : Compacted full minimal (afterRemoval grouped full removed) focal after) :
    (shownUnits (packOf focal after budget) : Int) =
      estimatePackItemUnits focal + costs unitsOf (sectionNames.flatMap (without grouped removed)) := by
  have others : (otherSections.map fun name => (((packOf focal after budget).sections name).items.map estimatePackItemUnits).sum).sum =
      ((otherSections.flatMap (without grouped removed)).map unitsOf).sum := by
    rw [map_flatMap, flatMap_def, sum_flatten, map_map]
    congr 1
    apply map_congr_left
    intro name member
    rw [packOf_other budget (mem_otherSections.mp member), done.retained, map_map]
    rfl
  unfold Retrieval.shownUnits costs
  rw [sectionNames_eq, map_cons, sum_cons, others, flatMap_cons, lawful.without_focal, nil_append, Int.natCast_add]
  unfold packOf
  dsimp only
  rw [if_pos rfl, map_singleton, sum_singleton]

theorem Compacted.budgeted {count : Nat} (all : count ≤ (removalOrder grouped).length)
    (fits : unitsWithout grouped full count ≤ requestedUnits ∨ count = (removalOrder grouped).length)
    (shortest : ∀ fewer < count, requestedUnits < unitsWithout grouped full fewer) (asked : 0 ≤ requestedUnits)
    (sound : Sound (estimatePackItemUnits minimal) after)
    (done : Compacted full minimal (afterRemoval grouped full ((removalOrder grouped).take count)) focal after) :
    Budgeted entries grouped full requestedUnits (packOf focal after (reportOf requestedUnits (estimatePackItemUnits minimal) after)) := by
  have rest := lawful.without_perm count
  have omitted := done.omittedLabels requestedUnits (estimatePackItemUnits minimal) lawful (fun entry member => mem_of_mem_take member)
  constructor
  · exact reportOf_valid sound asked (Int.natCast_nonneg _)
  · rfl
  · rw [done.retainedLabels lawful, omitted]
    refine ((rest.map RankedEntry.label).append_right _).trans (perm_append_comm.trans ?_)
    rw [← map_append, take_append_drop]
    exact ((removalOrder_perm grouped).map RankedEntry.label).trans lawful.labels
  · have used := done.used
    have same : costs unitsOf (sectionNames.flatMap (without grouped ((removalOrder grouped).take count))) =
        costs unitsOf ((removalOrder grouped).drop count) := by
      unfold costs
      rw [(rest.map unitsOf).sum_nat]
    rw [afterRemoval_used] at used
    rw [done.shownUnits lawful, same]
    unfold packOf reportOf
    dsimp only
    omega
  · exact ⟨count, all, omitted, fits, shortest⟩

end

theorem removedFrom_eq_take (grouped : PackSectionName → List RankedEntry) (full : PackItem) (requestedUnits : Int) :
    removedFrom grouped full requestedUnits = (removalOrder grouped).take (removedFrom grouped full requestedUnits).length :=
  prefix_iff_eq_take.mp (trim_isPrefix _ _ _)

theorem applyBudget_eq (lawful : Grouped entries grouped) (asked : 0 ≤ requestedUnits)
    (least : estimatePackItemUnits minimal ≤ estimatePackItemUnits full) :
    ∃ focal after, Compacted full minimal (afterRemoval grouped full (removedFrom grouped full requestedUnits)) focal after ∧
      Sound (estimatePackItemUnits minimal) after ∧ applyBudget grouped full minimal requestedUnits =
        .ok (packOf focal after (reportOf requestedUnits (estimatePackItemUnits minimal) after)) := by
  have done := compactFocal_compacted full minimal requestedUnits (afterRemoval grouped full (removedFrom grouped full requestedUnits))
  have sound : Sound (estimatePackItemUnits minimal)
      (compactFocal full minimal requestedUnits (afterRemoval grouped full (removedFrom grouped full requestedUnits))).2 := by
    rw [removedFrom_eq_take] at done ⊢
    apply done.sound (afterRemoval_sound grouped _ least) least
    have left := costs_nonneg unitsOf ((removalOrder grouped).drop (removedFrom grouped full requestedUnits).length)
    rw [afterRemoval_used]
    omega
  refine ⟨_, _, done, sound, ?_⟩
  unfold applyBudget
  dsimp only
  have trimmed := dropEntries_grouped lawful full requestedUnits
  dsimp only at trimmed
  rw [trimmed, bind_ok]
  refine ⟨(), reportOf_valid sound asked (Int.natCast_nonneg _), bind_ok.mpr ⟨(), packOf_valid sound, rfl⟩⟩

theorem removedFrom_fits (grouped : PackSectionName → List RankedEntry) (full : PackItem) (requestedUnits : Int) :
    unitsWithout grouped full (removedFrom grouped full requestedUnits).length ≤ requestedUnits ∨
      (removedFrom grouped full requestedUnits).length = (removalOrder grouped).length := by
  have left := costs_drop grouped (removedFrom grouped full requestedUnits).length
  rw [← removedFrom_eq_take] at left
  unfold unitsWithout
  rcases @trim_fits _ unitsOf requestedUnits (estimatePackItemUnits full + costs unitsOf (allEntries grouped)) (removalOrder grouped)
    with fits | all
  · left
    unfold removedFrom at left ⊢
    omega
  · right
    unfold removedFrom
    rw [all]

theorem removedFrom_shortest {fewer : Nat} (less : fewer < (removedFrom grouped full requestedUnits).length) :
    requestedUnits < unitsWithout grouped full fewer := by
  have beyond := trim_shortest less
  have left := costs_drop grouped fewer
  unfold unitsWithout
  omega

theorem without_sublist {longer : List RankedEntry} (front : removed <+: longer) (grouped : PackSectionName → List RankedEntry)
    (name : PackSectionName) : (without grouped longer name).Sublist (without grouped removed name) := by
  obtain ⟨rest, rfl⟩ := front
  have parts : without grouped (removed ++ rest) name = without (without grouped removed) rest name := by
    unfold without
    rw [filter_filter]
    apply filter_congr
    intro entry _
    simp only [map_append, mem_append, not_or, Bool.decide_and]
    exact Bool.and_comm _ _
  rw [parts]
  exact filter_sublist

end

/-- Every ranking of entries yields a pack for every budget. The pack shows or lists each entry once, and it removes the shortest part
of the removal order that is enough, or all of it. -/
theorem applyBudget_keeps (alphabet : Alphabet) (query : Option String) (entries : List Entry) (sanitizer : Sanitizer) (record : DocumentRecord)
    (grouped : PackSectionName → List RankedEntry) (ranked : rankAndGroup alphabet query entries = .ok grouped) :
    ((removalOrder grouped).map RankedEntry.label).Perm ((deduped entries).map Entry.label) ∧
    (removalOrder grouped).Pairwise (fun one two => removalKey one ≤ removalKey two) ∧
    (∀ budget : Nat, ∃ pack, applyBudget grouped (recordItem sanitizer record false) (recordItem sanitizer record true) budget = .ok pack ∧
      Budgeted entries grouped (recordItem sanitizer record false) budget pack) ∧
    ∀ budget greater : Nat, budget ≤ greater → ∀ pack larger : ContextPackSections,
      applyBudget grouped (recordItem sanitizer record false) (recordItem sanitizer record true) budget = .ok pack →
      applyBudget grouped (recordItem sanitizer record false) (recordItem sanitizer record true) greater = .ok larger →
      ∀ name, name ≠ .focalEntity → (pack.sections name).items.Sublist (larger.sections name).items := by
  have lawful := grouped_of_rankAndGroup ranked
  have least := minimal_units_le sanitizer record
  refine ⟨((removalOrder_perm grouped).map RankedEntry.label).trans lawful.labels, sortedBy_sorted removalKey _, ?_, ?_⟩
  · intro budget
    obtain ⟨focal, after, done, sound, made⟩ := applyBudget_eq lawful (Int.natCast_nonneg budget) least
    rw [removedFrom_eq_take] at done
    refine ⟨_, made, ?_⟩
    exact done.budgeted lawful (trim_isPrefix _ _ _).length_le (removedFrom_fits grouped _ _) (fun _ less => removedFrom_shortest less)
      (Int.natCast_nonneg budget) sound
  · intro budget greater le pack larger made also name other
    obtain ⟨focal, after, done, _, same⟩ := applyBudget_eq lawful (Int.natCast_nonneg budget) least
    obtain ⟨focal', after', done', _, same'⟩ := applyBudget_eq lawful (Int.natCast_nonneg greater) least
    rw [same] at made
    rw [same'] at also
    rw [← Except.ok.inj made, ← Except.ok.inj also, packOf_other _ other, packOf_other _ other, done.retained, done'.retained]
    apply List.Sublist.map
    exact without_sublist (trim_mono (Int.ofNat_le.mpr le) _ _) grouped name

def blockedBy : Entry where
  name := .directRelationships
  item := ⟨"TSK-2", .relationship, none, "blocked by", "", [], none, by decide⟩
  ranking := ⟨entryKey .directRelationships "TSK-2", none, none, none, none, 1, "", none, none, none, none, by decide⟩
  dropTier := 0
  keyed := rfl
  outside := by decide

/-- The pack of one entry, under a budget that nothing fits. -/
theorem applyBudget_keeps_blockedBy : ∃ grouped, rankAndGroup ⟨id, id, id, fun _ => false, fun _ => true⟩ none [blockedBy] = .ok grouped ∧
    ∃ pack, applyBudget grouped (recordItem ⟨id, fun _ => id⟩ ⟨"TSK-1", .task, "context://tasks/TSK-1", "Ship", "", [], [], by decide, by simp⟩ false)
      (recordItem ⟨id, fun _ => id⟩ ⟨"TSK-1", .task, "context://tasks/TSK-1", "Ship", "", [], [], by decide, by simp⟩ true) (0 : Nat) = .ok pack ∧
      (retainedLabels pack ++ omittedLabels pack).Perm ((deduped [blockedBy]).map Entry.label) := by
  have undated : Datable ((deduped [blockedBy]).map Entry.ranking) := by
    intro candidate member time dated
    rw [List.mem_singleton.mp member] at dated
    cases dated
  have placed : ∃ grouped, rankAndGroup ⟨id, id, id, fun _ => false, fun _ => true⟩ none [blockedBy] = .ok grouped := by
    obtain ⟨ranked, done⟩ := (@rank_returns_iff ⟨id, id, id, fun _ => false, fun _ => true⟩ none
      ((deduped [blockedBy]).map Entry.ranking) none).mpr ⟨by decide, undated, trivial⟩
    exact ⟨_, bind_ok.mpr ⟨ranked, done, rfl⟩⟩
  obtain ⟨grouped, done⟩ := placed
  obtain ⟨_, _, every, _⟩ := applyBudget_keeps _ none [blockedBy] ⟨id, fun _ => id⟩
    ⟨"TSK-1", .task, "context://tasks/TSK-1", "Ship", "", [], [], by decide, by simp⟩ grouped done
  obtain ⟨pack, made, budgeted⟩ := every 0
  exact ⟨grouped, done, pack, made, budgeted.conserved⟩

/-- The pack of some entries is made of the first one under each key, wherever the others stand. -/
theorem rankAndGroup_of_firsts (alphabet : Alphabet) (query : Option String) (entries others : List Entry)
    (firsts : ∀ key, entries.find? (fun entry => decide (entry.ranking.key = key)) =
      others.find? fun entry => decide (entry.ranking.key = key)) :
    rankAndGroup alphabet query entries = rankAndGroup alphabet query others := by
  have same : (deduped entries).Perm (deduped others) := firstBy_perm firsts
  rw [rankAndGroup, rankAndGroup, ← rank_perm (same.map Entry.ranking)]
  cases done : rank alphabet query none ((deduped entries).map Entry.ranking) with
  | error error => rfl
  | ok ranked =>
    obtain ⟨_, _, orders, _⟩ := grouped_of_rankAndGroup (bind_ok.mpr ⟨ranked, done, rfl⟩)
    rw [((allEntries_filter _).map _).nodup_iff] at orders
    refine congrArg Except.ok (funext fun name => ?_)
    refine sortedBy_congr ((same.filterMap _).filter _) fun first inside second also equal => ?_
    exact inj_on_of_nodup_map orders (mem_of_mem_filter inside) (mem_of_mem_filter also) equal

def dependsOn : Entry :=
  { blockedBy with
    item := ⟨"TSK-3", .relationship, none, "depends on", "", [], none, by decide⟩
    ranking := ⟨entryKey .directRelationships "TSK-3", none, none, none, none, 1, "", none, none, none, none, by decide⟩
    keyed := rfl }

theorem rankAndGroup_of_firsts_swapped : rankAndGroup ⟨id, id, id, fun _ => false, fun _ => true⟩ none [blockedBy, dependsOn] =
    rankAndGroup ⟨id, id, id, fun _ => false, fun _ => true⟩ none [dependsOn, blockedBy, dependsOn] := by
  refine rankAndGroup_of_firsts _ _ _ _ fun key => ?_
  have differ : blockedBy.ranking.key ≠ dependsOn.ranking.key := by decide
  simp only [find?_cons, find?_nil]
  by_cases one : blockedBy.ranking.key = key
  · rw [decide_eq_true one, decide_eq_false fun two => differ (one.trans two.symm)]
  · rw [decide_eq_false one]
    cases decide (dependsOn.ranking.key = key) <;> rfl

end Workctx.Retrieval
