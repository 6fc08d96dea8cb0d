import Workctx.Topics.Folding
import Workctx.Topics.Guard
import Mathlib.Data.Finset.Card
import Mathlib.Data.List.ReduceOption

/-! The review of the active topics, which asks the guard about each pair of them. -/

namespace Workctx.Topics
open Workctx.Domain Workctx.Search List

structure TopicReviewCandidate where
  leftSlug : String
  rightSlug : String
  nameRule : Option DuplicateRule
  normalizedDistance : Option ℚ
  sharedDocuments : Nat
  unionDocuments : Nat
  coReferenceJaccard : ℚ

def explicitlyDistinct (left right : Topic) : Bool :=
  (left.distinctFrom.any fun note => note.slug == right.slug) || right.distinctFrom.any fun note => note.slug == left.slug

/-- `right.model_copy(update={"distinct_from": []})` -/
def undistinguished (topic : Topic) : Topic := { topic with distinctFrom := [] }

def pairs {α : Type} : List α → List (α × α)
  | [] => []
  | item :: rest => rest.map (fun later => (item, later)) ++ pairs rest

def reviewCandidate (documents : String → Finset String) (left right : Topic) (nameMatch : Option TopicDuplicateMatch) :
    Option TopicReviewCandidate :=
  let shared := (documents left.slug ∩ documents right.slug).card
  let union := (documents left.slug ∪ documents right.slug).card
  if nameMatch.isNone && shared == 0 then none
  else some {
    leftSlug := left.slug
    rightSlug := right.slug
    nameRule := nameMatch.map TopicDuplicateMatch.rule
    normalizedDistance := nameMatch.map TopicDuplicateMatch.normalizedDistance
    sharedDocuments := shared
    unionDocuments := union
    coReferenceJaccard := if union = 0 then 0 else shared / union }

section
variable (unicode : UnicodeData)

def reviewPair (documents : String → Finset String) (left right : Topic) : Except String (Option TopicReviewCandidate) :=
  if explicitlyDistinct left right then .ok none
  else do
    requireRegistryIntegrity unicode [undistinguished right]
    .ok (reviewCandidate documents left right (findDuplicateTopics unicode left.name left.slug [undistinguished right]).head?)

def reviewKey (candidate : TopicReviewCandidate) : Bool ×ₗ ℚ ×ₗ String ×ₗ String :=
  toLex (candidate.nameRule.isNone, toLex (-candidate.coReferenceJaccard, toLex (candidate.leftSlug, candidate.rightSlug)))

/-- `TopicService.review` of a registry and the documents that can carry topics -/
def review (registry : TopicRegistry unicode) (documents : List TopicDocument) : Except String (List TopicReviewCandidate) := do
  let active := sortedBy Topic.slug (activeTopics registry.topics)
  let grouped := documentsByTopic unicode registry.topics documents
  let found ← (pairs active).mapM fun pair => reviewPair unicode (fun slug => (grouped slug).getD ∅) pair.1 pair.2
  .ok (sortedBy reviewKey found.reduceOption)

end

/-! Pairs. -/

theorem mem_pairs {α : Type} {items : List α} {one two : α} (one_mem : one ∈ items) (two_mem : two ∈ items) (apart : one ≠ two) :
    (one, two) ∈ pairs items ∨ (two, one) ∈ pairs items := by
  induction items with
  | nil => cases one_mem
  | cons item rest ih =>
    simp only [pairs, mem_append, mem_map, Prod.mk.injEq]
    rcases mem_cons.mp one_mem with rfl | first
    · rcases mem_cons.mp two_mem with rfl | second
      · exact absurd rfl apart
      · exact .inl (.inl ⟨two, second, rfl, rfl⟩)
    · rcases mem_cons.mp two_mem with rfl | second
      · exact .inr (.inl ⟨one, first, rfl, rfl⟩)
      · rcases ih first second with member | member
        · exact .inl (.inr member)
        · exact .inr (.inr member)

theorem pairs_mem {α : Type} {items : List α} {pair : α × α} (member : pair ∈ pairs items) : pair.1 ∈ items ∧ pair.2 ∈ items := by
  induction items with
  | nil => cases member
  | cons item rest ih =>
    rcases mem_append.mp member with here | later
    · obtain ⟨other, inside, rfl⟩ := mem_map.mp here
      exact ⟨mem_cons_self, mem_cons_of_mem item inside⟩
    · exact ⟨mem_cons_of_mem item (ih later).1, mem_cons_of_mem item (ih later).2⟩

theorem pairs_related {α : Type} {R : α → α → Prop} {items : List α} (related : items.Pairwise R) {pair : α × α}
    (member : pair ∈ pairs items) : R pair.1 pair.2 := by
  induction items with
  | nil => cases member
  | cons item rest ih =>
    obtain ⟨first, others⟩ := pairwise_cons.mp related
    rcases mem_append.mp member with here | later
    · obtain ⟨other, inside, rfl⟩ := mem_map.mp here
      exact first other inside
    · exact ih others later

/-! The rounds. -/

variable {unicode : UnicodeData}

theorem explicitlyDistinct_comm (left right : Topic) : explicitlyDistinct left right = explicitlyDistinct right left := Bool.or_comm _ _

variable {topics : List Topic} {documents : String → Finset String}

theorem single_integrity {topic : Topic} (integrity : Integrity unicode topics) (member : topic ∈ topics)
    (active : topic.status = .active) : requireRegistryIntegrity unicode [undistinguished topic] = .ok () := by
  have alone : ∀ {entry}, entry ∈ [undistinguished topic] → entry = undistinguished topic := mem_singleton.mp
  rw [requireRegistryIntegrity_ok]
  constructor
  · exact nodup_singleton _
  · exact nodup_singleton _
  · intro entry inside spelling spells
    rw [alone inside] at spells ⊢
    exact integrity.ownSlug topic member spelling spells
  · intro entry inside spelling spells owner known same
    rw [alone inside] at spells
    rw [alone known] at same
    exact absurd same.symm (integrity.ownSlug topic member spelling spells)
  · intro entry inside spelling _ other known another _ _
    rw [alone inside, alone known]
  · intro entry inside merged
    rw [alone inside] at merged
    exact absurd (active.symm.trans merged) (by decide)
  · intro entry inside note listed
    rw [alone inside] at listed
    cases listed

def GuardFires (unicode : UnicodeData) (left right : Topic) : Prop :=
  ∃ one ∈ [left.name, left.slug], ∃ two ∈ right.name :: right.slug :: right.aliases, Similar unicode one two

def Share (documents : String → Finset String) (left right : Topic) : Prop :=
  ∃ path, path ∈ documents left.slug ∧ path ∈ documents right.slug

theorem reviewCandidate_slugs {left right : Topic} {nameMatch : Option TopicDuplicateMatch}
    {candidate : TopicReviewCandidate} (found : reviewCandidate documents left right nameMatch = some candidate) :
    candidate.leftSlug = left.slug ∧ candidate.rightSlug = right.slug := by
  unfold reviewCandidate at found
  dsimp only at found
  split at found
  · cases found
  · cases found
    exact ⟨rfl, rfl⟩

theorem reviewCandidate_isSome {left right : Topic} {nameMatch : Option TopicDuplicateMatch} :
    (reviewCandidate documents left right nameMatch).isSome = true ↔ nameMatch ≠ none ∨ Share documents left right := by
  have shares : (documents left.slug ∩ documents right.slug).card ≠ 0 ↔ Share documents left right := by
    rw [Ne, Finset.card_eq_zero, ← Ne, ← Finset.nonempty_iff_ne_empty]
    unfold Share
    simp [Finset.Nonempty]
  unfold reviewCandidate
  dsimp only
  rw [← shares]
  split
  · next nothing =>
    rw [Bool.and_eq_true, beq_iff_eq, Option.isNone_iff_eq_none] at nothing
    simp [nothing]
  · next something =>
    rw [Bool.and_eq_true, beq_iff_eq, Option.isNone_iff_eq_none] at something
    simp only [Option.isSome_some, true_iff]
    tauto

theorem reviewPair_ok {left right : Topic} (integrity : Integrity unicode topics)
    (member : right ∈ topics) (active : right.status = .active) : ∃ found, reviewPair unicode documents left right = .ok found ∧
      (∀ candidate ∈ found, candidate.leftSlug = left.slug ∧ candidate.rightSlug = right.slug) ∧
      (found.isSome = true ↔ explicitlyDistinct left right = false ∧ (GuardFires unicode left right ∨ Share documents left right)) := by
  unfold reviewPair
  cases distinct : explicitlyDistinct left right with
  | true => exact ⟨none, rfl, by simp, by simp⟩
  | false =>
    have unmerged : (undistinguished right).status ≠ .merged := fun merged => absurd (active.symm.trans merged) (by decide)
    have fires : findDuplicateTopics unicode left.name left.slug [undistinguished right] ≠ [] ↔ GuardFires unicode left right :=
      findDuplicateTopics_fires unmerged
    rw [single_integrity integrity member active]
    refine ⟨_, rfl, fun candidate => reviewCandidate_slugs, ?_⟩
    rw [reviewCandidate_isSome, Ne, head?_eq_none_iff, ← Ne, fires]
    simp

theorem mem_activeTopics {topic : Topic} : topic ∈ activeTopics topics ↔ topic ∈ topics ∧ topic.status = .active := by
  unfold activeTopics
  rw [mem_filter, beq_iff_eq]

def documentsOf (registry : TopicRegistry unicode) (documents : List TopicDocument) (slug : String) : Finset String :=
  (documentsByTopic unicode registry.topics documents slug).getD ∅

def reviewed (registry : TopicRegistry unicode) : List Topic := sortedBy Topic.slug (activeTopics registry.topics)

section
variable {registry : TopicRegistry unicode} {documents : List TopicDocument}

theorem mem_reviewed {topic : Topic} : topic ∈ reviewed registry ↔ topic ∈ registry.topics ∧ topic.status = .active := by
  unfold reviewed
  rw [mem_sortedBy, mem_activeTopics]

theorem reviewed_sorted : (reviewed registry).Pairwise fun one two => one.slug < two.slug := by
  have slugs : ((reviewed registry).map Topic.slug).Nodup := by
    have permuted := (sortedBy_perm Topic.slug (activeTopics registry.topics)).map Topic.slug
    refine permuted.nodup_iff.mpr (registry.integrity.slugs.sublist ?_)
    exact List.Sublist.map Topic.slug filter_sublist
  have apart : (reviewed registry).Pairwise fun one two => one.slug ≠ two.slug := pairwise_map.mp slugs
  exact (sortedBy_sorted Topic.slug _).imp₂ (fun _ _ less differ => lt_of_le_of_ne less differ) apart

theorem review_found : ∃ candidates, review unicode registry documents = .ok candidates ∧ ∀ candidate, candidate ∈ candidates ↔
    ∃ pair ∈ pairs (reviewed registry), reviewPair unicode (documentsOf registry documents) pair.1 pair.2 = .ok (some candidate) := by
  have each : (pairs (reviewed registry)).mapM (fun pair => reviewPair unicode (documentsOf registry documents) pair.1 pair.2) =
      .ok ((pairs (reviewed registry)).map fun pair => (reviewPair unicode (documentsOf registry documents) pair.1 pair.2).toOption.join) := by
    rw [mapM_ok_iff, forall₂_map_right_iff, forall₂_same]
    intro pair member
    obtain ⟨known, active⟩ := mem_reviewed.mp (pairs_mem member).2
    obtain ⟨found, done, _⟩ := reviewPair_ok registry.integrity known active
    rw [done]
    rfl
  refine ⟨_, bind_ok.mpr ⟨_, each, rfl⟩, fun candidate => ?_⟩
  rw [mem_sortedBy, reduceOption_mem_iff, mem_map]
  refine exists_congr fun pair => and_congr_right fun member => ?_
  cases reviewPair unicode (documentsOf registry documents) pair.1 pair.2 with
  | error message => simp [Except.toOption]
  | ok found => simp [Except.toOption]

def Reported (candidates : List TopicReviewCandidate) (one two : Topic) : Prop :=
  ∃ candidate ∈ candidates, (candidate.leftSlug = one.slug ∧ candidate.rightSlug = two.slug) ∨
    (candidate.leftSlug = two.slug ∧ candidate.rightSlug = one.slug)

variable {candidates : List TopicReviewCandidate} {one two : Topic} {other : TopicRegistry unicode}

theorem Reported.symm (reported : Reported candidates one two) :
    Reported candidates two one := by
  obtain ⟨candidate, member, slugs⟩ := reported
  exact ⟨candidate, member, slugs.symm⟩

/-- The pair of two topics is reported where the guard fires in the order of the slugs, or where they have a document in common. -/
theorem reported_iff (done : review unicode registry documents = .ok candidates) {left right : Topic}
    (one : left ∈ reviewed registry) (two : right ∈ reviewed registry) (before : left.slug < right.slug) :
    Reported candidates left right ↔ explicitlyDistinct left right = false ∧
      (GuardFires unicode left right ∨ Share (documentsOf registry documents) left right) := by
  obtain ⟨found, same, members⟩ : ∃ candidates, review unicode registry documents = .ok candidates ∧ ∀ candidate, candidate ∈ candidates ↔ _ :=
    review_found
  rw [done] at same
  cases same
  have unique : ∀ {topic other : Topic}, topic ∈ reviewed registry → other ∈ reviewed registry → topic.slug = other.slug → topic = other :=
    fun first second => mem_unique registry.integrity.slugs (mem_reviewed.mp first).1 (mem_reviewed.mp second).1
  have round : ∀ {one two : Topic}, two ∈ reviewed registry → ∃ found,
      reviewPair unicode (documentsOf registry documents) one two = .ok found ∧
        (∀ candidate ∈ found, candidate.leftSlug = one.slug ∧ candidate.rightSlug = two.slug) ∧
        (found.isSome = true ↔ explicitlyDistinct one two = false ∧
          (GuardFires unicode one two ∨ Share (documentsOf registry documents) one two)) :=
    fun member => reviewPair_ok registry.integrity (mem_reviewed.mp member).1 (mem_reviewed.mp member).2
  obtain ⟨outcome, pairwise, slugs, isSome⟩ : ∃ found, reviewPair unicode (documentsOf registry documents) left right = .ok found ∧ _ :=
    round two
  rw [← isSome]
  constructor
  · rintro ⟨candidate, member, named⟩
    obtain ⟨pair, listed, made⟩ := (members candidate).mp member
    obtain ⟨first, second⟩ := pairs_mem listed
    have ordered := pairs_related reviewed_sorted listed
    obtain ⟨found, again, named', _⟩ : ∃ found, reviewPair unicode (documentsOf registry documents) pair.1 pair.2 = .ok found ∧ _ :=
      round second
    rw [made] at again
    cases again
    obtain ⟨leftSlug, rightSlug⟩ := named' candidate rfl
    rcases named with ⟨own, other⟩ | ⟨other, own⟩
    · have sameLeft := unique first one (leftSlug.symm.trans own)
      have sameRight := unique second two (rightSlug.symm.trans other)
      rw [sameLeft, sameRight, pairwise] at made
      rw [Except.ok.inj made]
      rfl
    · -- The report names the pair in the order of the slugs.
      rw [leftSlug] at other
      rw [rightSlug] at own
      rw [other, own] at ordered
      exact absurd (ordered.trans before) (lt_irrefl _)
  · intro some
    obtain ⟨candidate, rfl⟩ := Option.isSome_iff_exists.mp some
    have apart : left ≠ right := fun equal => absurd before (by rw [equal]; exact lt_irrefl _)
    rcases mem_pairs one two apart with listed | listed
    · exact ⟨candidate, (members candidate).mpr ⟨(left, right), listed, pairwise⟩, .inl (slugs candidate rfl)⟩
    · exact absurd ((pairs_related reviewed_sorted listed).trans before) (lt_irrefl _)

def NamesSimilar (unicode : UnicodeData) (one two : Topic) : Prop :=
  ∃ first ∈ [one.name, one.slug], ∃ second ∈ [two.name, two.slug], Similar unicode first second

def SpellingsSimilar (unicode : UnicodeData) (one two : Topic) : Prop :=
  ∃ first ∈ one.name :: one.slug :: one.aliases, ∃ second ∈ two.name :: two.slug :: two.aliases, Similar unicode first second

theorem NamesSimilar.symm (similar : NamesSimilar unicode one two) : NamesSimilar unicode two one := by
  obtain ⟨first, one_mem, second, two_mem, fires⟩ := similar
  exact ⟨second, two_mem, first, one_mem, fires.symm⟩

theorem SpellingsSimilar.symm (similar : SpellingsSimilar unicode one two) : SpellingsSimilar unicode two one := by
  obtain ⟨first, one_mem, second, two_mem, fires⟩ := similar
  exact ⟨second, two_mem, first, one_mem, fires.symm⟩

theorem Share.symm {documents : String → Finset String} (share : Share documents one two) : Share documents two one := by
  obtain ⟨path, first, second⟩ := share
  exact ⟨path, second, first⟩

theorem NamesSimilar.fires (similar : NamesSimilar unicode one two) : GuardFires unicode one two := by
  obtain ⟨first, one_mem, second, two_mem, fires⟩ := similar
  refine ⟨first, one_mem, second, ?_, fires⟩
  simp only [mem_cons, not_mem_nil, or_false] at two_mem ⊢
  tauto

theorem GuardFires.similar (fires : GuardFires unicode one two) : SpellingsSimilar unicode one two := by
  obtain ⟨first, one_mem, second, two_mem, similar⟩ := fires
  refine ⟨first, ?_, second, two_mem, similar⟩
  simp only [mem_cons, not_mem_nil, or_false] at one_mem ⊢
  tauto

/-- A pair is reported, in either order, where names or slugs are similar or documents are shared, and only where spellings are
similar or documents are shared; explicitly distinct topics are not. -/
theorem reported_between (done : review unicode registry documents = .ok candidates)
    (first : one ∈ reviewed registry) (second : two ∈ reviewed registry) (apart : one.slug ≠ two.slug) :
    (Reported candidates one two → explicitlyDistinct one two = false ∧
      (SpellingsSimilar unicode one two ∨ Share (documentsOf registry documents) one two)) ∧
    (explicitlyDistinct one two = false → NamesSimilar unicode one two ∨ Share (documentsOf registry documents) one two →
      Reported candidates one two) := by
  have sorted : ∀ {left right : Topic}, left ∈ reviewed registry → right ∈ reviewed registry → left.slug < right.slug →
      (Reported candidates left right → explicitlyDistinct left right = false ∧
        (SpellingsSimilar unicode left right ∨ Share (documentsOf registry documents) left right)) ∧
      (explicitlyDistinct left right = false → NamesSimilar unicode left right ∨ Share (documentsOf registry documents) left right →
        Reported candidates left right) := by
    intro left right one two before
    rw [reported_iff done one two before]
    exact ⟨fun ⟨unlike, shown⟩ => ⟨unlike, shown.imp_left GuardFires.similar⟩, fun unlike shown => ⟨unlike, shown.imp_left NamesSimilar.fires⟩⟩
  rcases lt_or_gt_of_ne apart with before | behind
  · exact sorted first second before
  · obtain ⟨only, whenever⟩ := sorted second first behind
    rw [explicitlyDistinct_comm one two]
    constructor
    · intro reported
      exact ⟨(only reported.symm).1, (only reported.symm).2.imp SpellingsSimilar.symm Share.symm⟩
    · intro unlike shown
      exact (whenever unlike (shown.imp NamesSimilar.symm Share.symm)).symm

theorem Names.perm {topics others : List Topic} {value : String} {topic : Topic} (same : topics.Perm others)
    (names : Names unicode topics value topic) : Names unicode others value topic := by
  cases names with
  | slug member active own => exact .slug (same.mem_iff.mp member) active own
  | merged member entry known merged own into => exact .merged (same.mem_iff.mp member) entry (same.mem_iff.mp known) merged own into
  | spelling member active unknown spelling spells key =>
    exact .spelling (same.mem_iff.mp member) active (fun entry known => unknown entry (same.mem_iff.mpr known)) spelling spells key

section
variable (same : other.topics.Perm registry.topics)
include same

theorem documentsOf_perm :
    documentsOf other documents = documentsOf registry documents := by
  have names : ∀ {value : String} {topic : Topic}, Names unicode other.topics value topic ↔ Names unicode registry.topics value topic :=
    ⟨Names.perm same, Names.perm same.symm⟩
  funext slug
  ext path
  rw [documentsOf, documentsOf, (documentsByTopic_spec other.integrity).2 path, (documentsByTopic_spec registry.integrity).2 path]
  simp only [resolvedSlug_iff other.integrity, resolvedSlug_iff registry.integrity, names]

theorem reviewed_perm : reviewed other = reviewed registry := by
  apply sortedBy_congr (same.filter _)
  intro one first two second slugs
  exact mem_unique other.integrity.slugs (mem_activeTopics.mp first).1 (mem_activeTopics.mp second).1 slugs

theorem review_perm :
    review unicode other documents = review unicode registry documents := by
  have rounds : ∀ registry : TopicRegistry unicode, review unicode registry documents = (do
      let found ← (pairs (reviewed registry)).mapM fun pair => reviewPair unicode (documentsOf registry documents) pair.1 pair.2
      .ok (sortedBy reviewKey found.reduceOption)) := fun _ => rfl
  rw [rounds other, rounds registry, reviewed_perm same, documentsOf_perm same]

end

end

/-- The review of a registry returns, and reports pairs of active topics in whichever order they stand: none that are explicitly
distinct, all others with similar names or slugs or a common document, and of the rest only those with similar spellings. -/
theorem review_order_independent (unicode : UnicodeData) (registry : TopicRegistry unicode) (documents : List TopicDocument) :
    ∃ candidates, review unicode registry documents = .ok candidates ∧
      (∀ one ∈ registry.topics, one.status = .active → ∀ two ∈ registry.topics, two.status = .active → one.slug ≠ two.slug →
        (Reported candidates one two → explicitlyDistinct one two = false ∧
          (SpellingsSimilar unicode one two ∨ Share (documentsOf registry documents) one two)) ∧
        (explicitlyDistinct one two = false → NamesSimilar unicode one two ∨ Share (documentsOf registry documents) one two →
          Reported candidates one two)) ∧
      ∀ other : TopicRegistry unicode, other.topics.Perm registry.topics → review unicode other documents = .ok candidates := by
  obtain ⟨candidates, done, _⟩ : ∃ candidates, review unicode registry documents = .ok candidates ∧ _ := review_found
  refine ⟨candidates, done, ?_, fun other same => (review_perm same).trans done⟩
  intro one first active two second also apart
  exact reported_between done (mem_reviewed.mpr ⟨first, active⟩) (mem_reviewed.mpr ⟨second, also⟩) apart

instance (unicode : UnicodeData) (one two : String) : Decidable (Similar unicode one two) := inferInstanceAs (Decidable (_ ≠ _))

instance (unicode : UnicodeData) (one two : Topic) : Decidable (NamesSimilar unicode one two) := by
  unfold NamesSimilar
  infer_instance

instance (unicode : UnicodeData) (one two : Topic) : Decidable (SpellingsSimilar unicode one two) := by
  unfold SpellingsSimilar
  infer_instance

def alpha : Topic := { sampleTopic "alpha" .active none with aliases := ["victor"] }
def bravo : Topic := sampleTopic "bravo" .active none
def charlie : Topic := { sampleTopic "charlie" .active none with distinctFrom := [⟨"charlies", "Another subject."⟩] }
def charlies : Topic := sampleTopic "charlies" .active none
def victors : Topic := sampleTopic "victors" .active none

def phoneticRegistry : TopicRegistry sampleUnicode where
  topics := [alpha, bravo, charlie, charlies, victors]
  accepted := by decide +kernel

def phoneticDocument : TopicDocument := ⟨"01_evidence/calls.md", ["alpha", "bravo"]⟩

/-- A pair with a common document is reported though no spellings are similar, explicitly distinct topics with similar names are
not, and neither is a pair where the alias of the first topic in the order of the slugs is similar to the name of the second. -/
theorem review_is_not_the_guard : ∃ candidates, review sampleUnicode phoneticRegistry [phoneticDocument] = .ok candidates ∧
    (Reported candidates alpha bravo ∧ ¬SpellingsSimilar sampleUnicode alpha bravo) ∧
    (¬Reported candidates charlie charlies ∧ NamesSimilar sampleUnicode charlie charlies) ∧
    (¬Reported candidates alpha victors ∧ SpellingsSimilar sampleUnicode alpha victors) := by
  obtain ⟨candidates, done, _⟩ : ∃ candidates, review sampleUnicode phoneticRegistry [phoneticDocument] = .ok candidates ∧ _ := review_found
  have known : ∀ topic ∈ [alpha, bravo, charlie, charlies, victors], topic ∈ reviewed phoneticRegistry := by
    intro topic member
    refine mem_reviewed.mpr ⟨member, ?_⟩
    exact (by decide : ∀ topic ∈ [alpha, bravo, charlie, charlies, victors], topic.status = .active) topic member
  have shared : Share (documentsOf phoneticRegistry [phoneticDocument]) alpha bravo := by
    refine ⟨"01_evidence/calls.md", ?_, ?_⟩ <;> decide +kernel
  have apart : ¬Share (documentsOf phoneticRegistry [phoneticDocument]) alpha victors := by
    rintro ⟨path, _, second⟩
    have none : documentsOf phoneticRegistry [phoneticDocument] "victors" = ∅ := by decide +kernel
    change path ∈ documentsOf phoneticRegistry [phoneticDocument] "victors" at second
    rw [none] at second
    exact absurd second (Finset.notMem_empty path)
  have silent : ¬GuardFires sampleUnicode alpha victors := by
    unfold GuardFires
    decide +kernel
  have one := reported_iff done (known alpha (by decide)) (known bravo (by decide)) (by decide)
  have two := reported_iff done (known charlie (by decide)) (known charlies (by decide)) (by decide)
  have three := reported_iff done (known alpha (by decide)) (known victors (by decide)) (by decide)
  refine ⟨candidates, done, ⟨one.mpr ⟨by decide, .inr shared⟩, by decide +kernel⟩, ⟨fun reported => ?_, by decide +kernel⟩,
    fun reported => ?_, by decide +kernel⟩
  · exact absurd (two.mp reported).1 (by decide)
  · exact (three.mp reported).2.elim silent apart

end Workctx.Topics
