import Workctx.Migration.Hierarchy

/-! The identifiers that the mapping preview gives to the legacy documents, in the order it gives them. -/

namespace Workctx.Migration
open Workctx.Concurrent Workctx.Domain Workctx.Topics List

/-- An identifier that the allocator gives to a document. -/
structure Grant where
  document : LegacyDocument
  /-- The legacy identifiers that are valid for the document in its place -/
  accepts : String → Bool
  before : Allocator
  id : String
  after : Allocator

/-- Whether the identifier has the shape of an observation made for a document: it begins as those of evidence, and ends in three digits. -/
structure Numbered (id : String) : Prop where
  initial : id.toList.head? = some 'E'
  third : ∃ c, id.toList.reverse[2]? = some c ∧ isAsciiDigit c = true

/-- A grant keeps the legacy identifier, or draws a fresh one. -/
inductive Grant.Made (grant : Grant) : Prop
  | keeps (own : grant.document.oldId = some grant.id) (valid : grant.accepts grant.id = true) (free : grant.id ∉ grant.before.used)
    (after : grant.after = grant.before.reserve grant.id)
  | draws (refused : ∀ id, grant.document.oldId = some id → grant.accepts id = true → id ∈ grant.before.used)
    (kept : grant.before.used ⊆ grant.after.used)
    (fresh : grant.id ∉ grant.before.used ∨ ∃ evidenceId, evidenceId ∉ grant.before.used ∧ evidenceId ∈ grant.after.used ∧
      grant.id = evidenceId ++ "#OBS-001" ∧ grant.accepts = isObservationId)
    (paired : ∀ id ∈ grant.after.used, id ∉ grant.before.used → Numbered id → ∃ evidenceId ∈ grant.after.used, id = evidenceId ++ "#OBS-001")

def Granted : Allocator → List Grant → Allocator → Prop
  | state, [], last => state = last
  | state, grant :: rest, last => grant.before = state ∧ grant.Made ∧ Granted grant.after rest last

def HandedOut (id : String) (grants : List Grant) : Prop :=
  ∃ grant ∈ grants, grant.document.oldId ≠ some id ∧ id ∉ grant.before.used ∧ id ∈ grant.after.used

namespace Granted
variable {state middle last : Allocator} {front back : List Grant} {grant : Grant}

theorem append (first : Granted state front middle) (second : Granted middle back last) : Granted state (front ++ back) last := by
  induction front generalizing state with
  | nil =>
    cases first
    exact second
  | cons grant rest ih => exact ⟨first.1, first.2.1, ih first.2.2⟩

theorem split (granted : Granted state (front ++ back) last) : ∃ middle, Granted state front middle ∧ Granted middle back last := by
  induction front generalizing state with
  | nil => exact ⟨state, rfl, granted⟩
  | cons grant rest ih =>
    obtain ⟨middle, first, second⟩ := ih granted.2.2
    exact ⟨middle, ⟨granted.1, granted.2.1, first⟩, second⟩

theorem kept (granted : Granted state front last) : state.used ⊆ last.used := by
  induction front generalizing state with
  | nil => exact granted ▸ fun _ member => member
  | cons grant rest ih =>
    obtain ⟨rfl, made, later⟩ := granted
    have own : grant.before.used ⊆ grant.after.used := by
      cases made with
      | keeps _ _ _ after =>
        rw [after]
        exact subset_cons_self _ _
      | draws _ kept => exact kept
    exact fun _ member => ih later (own member)

theorem origin (granted : Granted state front last) {id : String} (used : id ∈ last.used) (fresh : id ∉ state.used) :
    ∃ grant ∈ front, grant.Made ∧ id ∉ grant.before.used ∧ id ∈ grant.after.used ∧ grant.after.used ⊆ last.used := by
  induction front generalizing state with
  | nil => exact absurd (granted ▸ used) fresh
  | cons grant rest ih =>
    obtain ⟨rfl, made, later⟩ := granted
    by_cases taken : id ∈ grant.after.used
    · exact ⟨grant, mem_cons_self, made, fresh, taken, later.kept⟩
    · obtain ⟨other, member, rest⟩ := ih later taken
      exact ⟨other, mem_cons_of_mem _ member, rest⟩

/-- A grant keeps an identifier that its document alone carries exactly where it has not been handed out before. -/
theorem keeps_iff (granted : Granted ⟨[], []⟩ (front ++ grant :: back) last) {id : String} (own : grant.document.oldId = some id)
    (valid : grant.accepts id = true) (sole : ∀ other ∈ front, other.document.oldId ≠ some id)
    (numbered : isObservationId id = true → Numbered id) : grant.id = id ↔ ¬HandedOut id front := by
  obtain ⟨middle, first, rfl, made, _⟩ := granted.split
  constructor
  · -- A fresh identifier is not in use, and the one of an observation has its evidence, which is not in use either.
    intro same ⟨other, member, _, new, taken⟩
    obtain ⟨before, after, rfl⟩ := append_of_mem member
    obtain ⟨between, _, rfl, drawn, rest⟩ := first.split
    have used : id ∈ grant.before.used := rest.kept taken
    cases made with
    | keeps _ _ free => exact free (same ▸ used)
    | draws _ _ fresh =>
      rcases fresh with free | ⟨evidenceId, free, _, name, observation⟩
      · exact free (same ▸ used)
      · rw [observation] at valid
        cases drawn with
        | keeps own' _ _ after =>
          rw [after] at taken
          rcases mem_cons.mp taken with here | old
          · exact sole other member (here ▸ own')
          · exact new old
        | draws _ _ _ paired =>
          obtain ⟨evidence, inside, named⟩ := paired id taken new (numbered valid)
          have equal : evidence = evidenceId := (String.append_left_inj _).mp (named.symm.trans (same.symm.trans name))
          exact free (rest.kept (equal ▸ inside))
  · intro handed
    have free : id ∉ grant.before.used := by
      intro used
      obtain ⟨other, member, _, new, taken, _⟩ := first.origin used not_mem_nil
      exact handed ⟨other, member, sole other member, new, taken⟩
    cases made with
    | keeps own' => exact Option.some.inj (own'.symm.trans own)
    | draws refused => exact absurd (refused id own valid) free

end Granted

/-! The shapes of identifiers -/

theorem numbered_of_observation {id : String} (observation : isObservationId id = true) : Numbered id := by
  obtain ⟨both, number⟩ := Bool.and_eq_true_iff.mp observation
  obtain ⟨evidence, mark⟩ := Bool.and_eq_true_iff.mp both
  obtain ⟨tag, _⟩ := Bool.and_eq_true_iff.mp evidence
  have text := prefix_iff_eq_append.mp (List.takeWhile_prefix (l := id.toList) (· != '#'))
  obtain ⟨more, opens⟩ := isPrefixOf_iff_prefix.mp tag
  obtain ⟨rest, behind⟩ := isPrefixOf_iff_prefix.mp mark
  rw [← behind] at number
  obtain ⟨length, digits⟩ := Bool.and_eq_true_iff.mp number
  obtain ⟨one, two, three, rfl⟩ := length_eq_three.mp (beq_iff_eq.mp length)
  have whole : id.toList = "EVD-".toList ++ more ++ ("#OBS-".toList ++ [one, two, three]) := by rw [opens, behind, text]
  constructor
  · rw [whole]
    rfl
  · refine ⟨one, ?_, all_eq_true.mp digits one mem_cons_self⟩
    rw [whole, reverse_append, reverse_append]
    rfl

theorem plain_of_initial {id : String} {c : Char} (initial : id.toList.head? = some c) (other : c ≠ 'E') : ¬Numbered id :=
  fun numbered => other (Option.some.inj (initial.symm.trans numbered.initial))

theorem initial_append {front back : String} {c : Char} (initial : front.toList.head? = some c) : (front ++ back).toList.head? = some c := by
  rw [String.toList_append, head?_append, initial]
  rfl

theorem padded_two {number : Nat} (small : number ≤ 99) : ∃ one two, (padded 2 number).toList = [one, two] := by
  have lengths : ∀ number < 100, (padded 2 number).toList.length = 2 := by decide
  exact length_eq_two.mp (lengths number (by omega))

theorem plain_of_sequence {front : String} {number : Nat} {c : Char} (small : number ≤ 99) (last : front.toList.getLast? = some c)
    (letter : isAsciiDigit c = false) : ¬Numbered (front ++ padded 2 number) := by
  intro numbered
  obtain ⟨digit, third, digits⟩ := numbered.third
  obtain ⟨one, two, same⟩ := padded_two small
  rw [String.toList_append, same, reverse_append] at third
  have behind : front.toList.reverse[0]? = some digit := third
  rw [← head?_eq_getElem?, head?_reverse, last] at behind
  cases behind
  exact absurd digits (by simp [letter])

/-! The steps of the allocator -/

namespace Allocator

theorem nextFree_le {used : List String} {candidate : Nat → String} {left sequence next : Nat}
    (found : nextFree used candidate left sequence = some next) : next ≤ sequence + left := by
  induction left generalizing sequence with
  | zero => cases found
  | succ left ih =>
    rw [nextFree] at found
    split at found
    · have := ih found
      omega
    · have := Option.some.inj found
      omega

theorem sequenced_drawn {allocator reserved : Allocator} {key exhausted id : String} {candidate : Nat → String} {limit : Nat}
    (allocated : allocator.sequenced key candidate limit exhausted = .ok (id, reserved)) :
    (∃ number, number ≤ limit ∧ id = candidate number) ∧ id ∉ allocator.used ∧ reserved.used = id :: allocator.used := by
  unfold sequenced at allocated
  dsimp only at allocated
  split at allocated
  · cases allocated
  · next next found =>
    cases allocated
    have bounded := nextFree_le found
    have left : limit - (allocator.sequences.get key).getD 0 ≠ 0 := by
      intro exhausted
      rw [exhausted] at found
      cases found
    exact ⟨⟨next, by omega, rfl⟩, nextFree_fresh found, rfl⟩

end Allocator

/-! The grants of the allocator -/

theorem Grant.made_of_plain {grant : Grant}
    (refused : ∀ id, grant.document.oldId = some id → grant.accepts id = true → id ∈ grant.before.used)
    (used : grant.after.used = grant.id :: grant.before.used) (free : grant.id ∉ grant.before.used) (plain : ¬Numbered grant.id) :
    grant.Made := by
  refine .draws refused ?_ (.inl free) ?_
  · rw [used]
    exact subset_cons_self _ _
  · intro id member new numbered
    rw [used] at member
    rcases mem_cons.mp member with here | old
    · exact absurd (here ▸ numbered) plain
    · exact absurd old new

theorem refused_of_filter {allocator : Allocator} {oldId : Option String} {accepts : String → Bool}
    (refused : (oldId.filter fun id => !allocator.used.contains id && accepts id) = none) :
    ∀ id, oldId = some id → accepts id = true → id ∈ allocator.used := by
  intro id own valid
  subst own
  have dropped := Option.filter_eq_none_iff.mp refused id rfl
  simpa [valid] using dropped

theorem Grant.made_of_filter {grant : Grant} {kept : String}
    (chosen : (grant.document.oldId.filter fun id => !grant.before.used.contains id && grant.accepts id) = some kept)
    (id : grant.id = kept) (after : grant.after = grant.before.reserve kept) : grant.Made := by
  obtain ⟨own, fits⟩ := Option.filter_eq_some_iff.mp chosen
  obtain ⟨free, valid⟩ := Bool.and_eq_true_iff.mp fits
  subst id
  exact .keeps own valid (by simpa using free) after

theorem tag_of_directory : ∀ entry ∈ entityDirectories,
    ["evidence", "claim", "observation", "decision", "question", "risk", "person", "system", "task"].contains entry.1 = false →
      ∃ tag c, genericPrefixes.lookup entry.1 = some tag ∧ tag.toList.head? = some c ∧ c ≠ 'E' := by
  intro entry member
  simp only [entityDirectories, mem_cons, not_mem_nil, or_false] at member
  rcases member with rfl | rfl | rfl | rfl | rfl | rfl | rfl | rfl | rfl | rfl | rfl | rfl | rfl | rfl | rfl | rfl | rfl | rfl <;>
    first
    | exact fun other => absurd other (by decide)
    | exact fun _ => ⟨_, _, rfl, rfl, by decide⟩

section
variable {time : MigrationTime} {unicode : UnicodeData} {allocator reserved : Allocator} {document : LegacyDocument} {id : String}

theorem yearSequence_plain {tag : String} {width : Nat} {c : Char} (allocated : allocator.yearSequence time tag width = .ok (id, reserved))
    (initial : tag.toList.head? = some c) (other : c ≠ 'E') :
    ¬Numbered id ∧ id ∉ allocator.used ∧ reserved.used = id :: allocator.used := by
  obtain ⟨⟨number, _, rfl⟩, free, used⟩ := Allocator.sequenced_drawn allocated
  exact ⟨plain_of_initial (initial_append (initial_append (initial_append (initial_append initial)))) other, free, used⟩

theorem dated_plain {tag slug : String} (allocated : allocator.dated time tag slug 2 = .ok (id, reserved)) :
    ¬Numbered id ∧ id ∉ allocator.used ∧ reserved.used = id :: allocator.used := by
  obtain ⟨⟨number, small, rfl⟩, free, used⟩ := Allocator.sequenced_drawn allocated
  refine ⟨plain_of_sequence (by simpa using small) (c := '-') ?_ (by decide), free, used⟩
  rw [String.toList_append, getLast?_append]
  rfl

theorem slugId_plain {tag slug : String} {c : Char} (made : allocator.slugId tag slug = (id, reserved))
    (initial : tag.toList.head? = some c) (other : c ≠ 'E') :
    ¬Numbered id ∧ id ∉ allocator.used ∧ reserved.used = id :: allocator.used := by
  cases made
  refine ⟨plain_of_initial ?_ other, Allocator.slugSequence_fresh _ _, rfl⟩
  unfold Allocator.slugCandidate
  split
  · exact initial_append (initial_append initial)
  · exact initial_append (initial_append (initial_append (initial_append initial)))

theorem allocate_made {entityType slug : String} (allocated : allocator.allocate time entityType slug = .ok (id, reserved))
    (directory : entityType ∈ entityDirectories.map Prod.fst) (other : entityType ≠ "task")
    (refused : ∀ id, document.oldId = some id → validId entityType id = true → id ∈ allocator.used) :
    Grant.Made ⟨document, validId entityType, allocator, id, reserved⟩ := by
  have plain : ¬Numbered id ∧ id ∉ allocator.used ∧ reserved.used = id :: allocator.used →
      Grant.Made ⟨document, validId entityType, allocator, id, reserved⟩ :=
    fun ⟨plain, free, used⟩ => Grant.made_of_plain refused used free plain
  unfold Allocator.allocate at allocated
  split at allocated
  case h_1 => exact plain (dated_plain allocated)
  case h_3 =>
    -- The evidence of an observation is fresh, the observation itself only as its evidence is.
    obtain ⟨⟨evidenceId, between⟩, dated, done⟩ := bind_ok.mp allocated
    cases done
    obtain ⟨single, free, used⟩ := dated_plain dated
    have taken : evidenceId ∈ between.used := used ▸ mem_cons_self
    refine .draws refused ?_ (.inr ⟨evidenceId, free, mem_cons_of_mem _ taken, rfl, rfl⟩) ?_
    · exact fun _ old => mem_cons_of_mem _ (used ▸ mem_cons_of_mem _ old)
    · intro id member new numbered
      rcases mem_cons.mp member with here | inside
      · exact ⟨evidenceId, mem_cons_of_mem _ taken, here⟩
      · dsimp only at inside new
        rw [used] at inside
        rcases mem_cons.mp inside with here | old
        · exact absurd (here ▸ numbered) single
        · exact absurd old new
  case h_7 | h_8 => exact plain (slugId_plain (Except.ok.inj allocated) rfl (by decide))
  case h_9 =>
    obtain ⟨entry, member, rfl⟩ := mem_map.mp directory
    obtain ⟨tag, c, found, initial, apart⟩ := tag_of_directory entry member (by simp_all)
    rw [found] at allocated
    exact plain (slugId_plain (Except.ok.inj allocated) initial apart)
  all_goals exact plain (yearSequence_plain allocated rfl (by decide))

theorem documentGrant_made {sourcePath : String}
    (allocated : allocator.reserveOrAllocate time unicode document.entityType document.oldId sourcePath = .ok (id, reserved))
    (directory : document.entityType ∈ entityDirectories.map Prod.fst) (other : document.entityType ≠ "task") :
    Grant.Made ⟨document, validId document.entityType, allocator, id, reserved⟩ := by
  unfold Allocator.reserveOrAllocate at allocated
  split at allocated
  · next kept chosen =>
    cases allocated
    exact Grant.made_of_filter chosen rfl rfl
  · next refused => exact allocate_made allocated directory other (refused_of_filter refused)

theorem rootGrant_made (allocated : allocator.allocateParentTask time document.oldId = .ok (id, reserved)) :
    Grant.Made ⟨document, validParentTaskId, allocator, id, reserved⟩ := by
  unfold Allocator.allocateParentTask at allocated
  split at allocated
  · next kept chosen =>
    cases allocated
    exact Grant.made_of_filter chosen rfl rfl
  · next refused =>
    obtain ⟨plain, free, used⟩ := yearSequence_plain allocated rfl (by decide)
    exact Grant.made_of_plain (refused_of_filter refused) used free plain

theorem subtaskGrant_made {rootId : String} (allocated : allocator.allocateSubtask rootId document.oldId = .ok (id, reserved)) :
    Grant.Made ⟨document, Allocator.isSubtaskOf rootId, allocator, id, reserved⟩ := by
  unfold Allocator.allocateSubtask at allocated
  split at allocated
  · next kept chosen =>
    cases allocated
    exact Grant.made_of_filter chosen rfl rfl
  · next refused =>
    obtain ⟨⟨number, small, rfl⟩, free, used⟩ := Allocator.sequenced_drawn allocated
    refine Grant.made_of_plain (refused_of_filter refused) used free (plain_of_sequence small (c := 'T') ?_ (by decide))
    rw [String.toList_append, getLast?_append]
    rfl

end
end Workctx.Migration
