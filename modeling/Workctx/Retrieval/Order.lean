import Workctx.Retrieval.Ranking
import Mathlib.Data.List.Perm.Basic

/-! The ranking of candidates with different keys is one order of them, which depends on nothing but their set. -/

namespace Workctx.Retrieval
open Workctx.Domain Workctx.Search Workctx.Validation List

/-! Bounds. -/

theorem relationSemanticScore_le (relation : RelationType) : relationSemanticScore relation ≤ 100 := by
  cases relation <;> decide

theorem claimStateScore_le (status : ClaimStatus) : claimStateScore status ≤ 100 := by
  cases status <;> decide

theorem confidenceScore_le (confidence : Confidence) : confidenceScore confidence ≤ 100 := by
  cases confidence <;> decide

theorem taskPriorityImportanceScore_le (priority : TaskPriority) : taskPriorityImportanceScore priority ≤ 100 := by
  cases priority <;> decide

theorem entityTypeImportanceScore_le (type : EntityType) : entityTypeImportanceScore type ≤ 100 := by
  cases type <;> decide

theorem observationKindSourceQualityScore_le (kind : ObservationKind) : observationKindSourceQualityScore kind ≤ 100 := by
  cases kind <;> decide

theorem locatorPrecisionScore_le (locator : LocatorType) : locatorPrecisionScore locator ≤ 100 := by
  cases locator <;> decide

theorem getD_le {α : Type} {score : α → Nat} (bounded : ∀ value, score value ≤ 100) (value : Option α) {default : Nat}
    (fits : default ≤ 100) : (value.map score).getD default ≤ 100 := by
  cases value with
  | none => exact fits
  | some value => exact bounded value

theorem recencyScore_le {timestamp : Option AwareDatetime} {referenceTime : Int} {score : Nat}
    (scored : recencyScore timestamp referenceTime = .ok score) : score ≤ 100 := by
  unfold recencyScore at scored
  split at scored
  · cases scored
    decide
  · obtain ⟨instant, _, rest⟩ := bind_ok.mp scored
    rw [← Except.ok.inj rest]
    cases found : recencyBuckets.find? fun bucket => decide (max (referenceTime - instant) 0 ≤ bucket.1 * microsecondsPerDay) with
    | none => decide
    | some bucket =>
      have small : ∀ bucket ∈ recencyBuckets, bucket.2 ≤ 100 := by decide
      exact small bucket (mem_of_find?_eq_some found)

theorem literalQueryMatch_le (alphabet : Alphabet) (query : Option String) (searchText : String) :
    literalQueryMatch alphabet query searchText ≤ 100 := by
  unfold literalQueryMatch
  dsimp only
  split
  · decide
  · apply Nat.div_le_of_le_mul
    rw [Nat.mul_comm]
    exact Nat.mul_le_mul_right 100 countP_le_length

theorem entityImportance_le (candidate : RankingCandidate) : entityImportance candidate ≤ 100 := by
  unfold entityImportance
  split
  · exact taskPriorityImportanceScore_le _
  · exact getD_le entityTypeImportanceScore_le _ (by decide)

theorem sourceQuality_le (candidate : RankingCandidate) : sourceQuality candidate ≤ 100 := by
  unfold sourceQuality
  cases candidate.observationKind with
  | none =>
    cases candidate.sourceLocator with
    | none => decide
    | some locator =>
      have := locatorPrecisionScore_le locator
      simp
      omega
  | some kind =>
    have := observationKindSourceQualityScore_le kind
    cases candidate.sourceLocator with
    | none =>
      simp
      omega
    | some locator =>
      have := locatorPrecisionScore_le locator
      simp
      omega

variable {alphabet : Alphabet} {query : Option String}

theorem rankingFactors_le (candidate : RankingCandidate) {recency : Nat} (fits : recency ≤ 100) :
    ∀ value ∈ (rankingFactors alphabet query candidate recency).asTuple, value ≤ 100 := by
  have relation := getD_le relationSemanticScore_le candidate.relation (by decide : 0 ≤ 100)
  have state := getD_le claimStateScore_le candidate.claimStatus (by decide : nonClaimStateScore ≤ 100)
  have confidence := getD_le confidenceScore_le candidate.confidence (by decide : 0 ≤ 100)
  have words := literalQueryMatch_le alphabet query candidate.searchText
  have importance := entityImportance_le candidate
  have quality := sourceQuality_le candidate
  intro value member
  simp only [RankingFactors.asTuple, rankingFactors, mem_cons, not_mem_nil, or_false] at member
  omega

theorem totalScore_le (factors : RankingFactors) (bounded : ∀ value ∈ factors.asTuple, value ≤ 100) :
    (List.zipWith (· * ·) factors.asTuple rankingFactorWeights).sum ≤ 10000 := by
  simp only [RankingFactors.asTuple, mem_cons, not_mem_nil, or_false, forall_eq_or_imp, forall_eq] at bounded
  simp only [RankingFactors.asTuple, rankingFactorWeights, zipWith_cons_cons, zipWith_nil_left, sum_cons, sum_nil]
  omega

/-! What is refused. -/

def InCalendar (time : AwareDatetime) : Prop := earliest ≤ time.instant ∧ time.instant ≤ latest

theorem utc_of_inCalendar {time : AwareDatetime} (inside : InCalendar time) : AwareDatetime.utc time = .ok time.instant := if_pos inside

theorem utc_of_not {time : AwareDatetime} (outside : ¬InCalendar time) : AwareDatetime.utc time = .error .overflow := if_neg outside

/-- A candidate is scored unless its time has no value in UTC; the checks of the scores never fail. -/
theorem scoreCandidate_of_inCalendar (referenceTime : Int) {candidate : RankingCandidate}
    (inside : ∀ time ∈ candidate.timestamp, InCalendar time) :
    ∃ item, scoreCandidate alphabet query referenceTime candidate = .ok item ∧ item.candidate = candidate ∧ item.totalScore ≤ 10000 := by
  obtain ⟨recency, scored⟩ : ∃ recency, recencyScore candidate.timestamp referenceTime = .ok recency := by
    unfold recencyScore
    cases stamped : candidate.timestamp with
    | none => exact ⟨0, rfl⟩
    | some time =>
      dsimp only
      rw [utc_of_inCalendar (inside time stamped)]
      exact ⟨_, rfl⟩
  have bounded : ∀ value ∈ (rankingFactors alphabet query candidate recency).asTuple, value ≤ 100 :=
    rankingFactors_le candidate (recencyScore_le scored)
  have total := totalScore_le _ bounded
  have fits : (rankingFactors alphabet query candidate recency).asTuple.any (fun value => decide (100 < value)) = false := by
    rw [any_eq_false]
    intro value member beyond
    exact absurd (of_decide_eq_true beyond) (Nat.not_lt.mpr (bounded value member))
  refine ⟨⟨candidate, rankingFactors alphabet query candidate recency, _, referenceTime⟩, ?_, rfl, total⟩
  unfold scoreCandidate
  rw [scored]
  dsimp only [bind, Except.bind]
  rw [fits, if_neg Bool.false_ne_true, if_neg (Nat.not_lt.mpr total)]
  rfl

theorem scoreCandidate_of_not (referenceTime : Int) {candidate : RankingCandidate} {time : AwareDatetime}
    (stamped : candidate.timestamp = some time) (outside : ¬InCalendar time) :
    scoreCandidate alphabet query referenceTime candidate = .error .overflow := by
  unfold scoreCandidate recencyScore
  rw [stamped]
  dsimp only
  rw [utc_of_not outside]
  rfl

/-! The order of the candidates does not matter. -/

theorem max?_perm {one two : List Int} (same : one.Perm two) : one.max? = two.max? := by
  cases found : one.max? with
  | none =>
    obtain rfl := max?_eq_none_iff.mp found
    rw [same.symm.eq_nil]
    rfl
  | some greatest =>
    symm
    rw [max?_eq_some_iff] at found ⊢
    exact ⟨same.mem_iff.mp found.1, fun value member => found.2 value (same.mem_iff.mpr member)⟩

theorem mapM_error {α β ε : Type} {read : α → Except ε β} {items : List α} {error : ε}
    (ends : ∀ item ∈ items, (∃ value, read item = .ok value) ∨ read item = .error error) (wrong : ∃ item ∈ items, read item = .error error) :
    items.mapM read = .error error := by
  induction items with
  | nil => exact absurd wrong (by simp)
  | cons item rest ih =>
    obtain ⟨here, later⟩ := forall_mem_cons.mp ends
    rw [mapM_cons]
    rcases here with ⟨value, done⟩ | failed
    · have below : ∃ other ∈ rest, read other = .error error := by
        obtain ⟨other, member, failed⟩ := wrong
        rcases mem_cons.mp member with same | inside
        · rw [same, done] at failed
          cases failed
        · exact ⟨other, inside, failed⟩
      rw [done, ih later below]
      rfl
    · rw [failed]
      rfl

theorem mapM_perm {α β ε : Type} {read : α → Except ε β} {one two : List α} {results : List β} (same : one.Perm two)
    (done : one.mapM read = .ok results) : ∃ others, two.mapM read = .ok others ∧ results.Perm others := by
  obtain ⟨others, all, permuted⟩ := perm_comp_forall₂ same.symm (mapM_ok_iff.mp done)
  exact ⟨others, mapM_ok_iff.mpr all, permuted.symm⟩

def Datable (candidates : List RankingCandidate) : Prop := ∀ candidate ∈ candidates, ∀ time ∈ candidate.timestamp, InCalendar time

def ReferenceTime.Usable : Option ReferenceTime → Prop
  | none => True
  | some .naive => False
  | some (.aware time) => InCalendar time

section
variable {candidates others : List RankingCandidate} {reference : Option ReferenceTime}

theorem times_ok (datable : Datable candidates) :
    (candidates.filterMap RankingCandidate.timestamp).mapM AwareDatetime.utc =
      .ok ((candidates.filterMap RankingCandidate.timestamp).map AwareDatetime.instant) := by
  rw [mapM_ok_iff, forall₂_map_right_iff, forall₂_same]
  intro time member
  obtain ⟨candidate, inside, stamped⟩ := mem_filterMap.mp member
  exact utc_of_inCalendar (datable candidate inside time stamped)

theorem utc_ends (time : AwareDatetime) : (∃ value, AwareDatetime.utc time = .ok value) ∨ AwareDatetime.utc time = .error .overflow := by
  by_cases inside : InCalendar time
  · exact .inl ⟨_, utc_of_inCalendar inside⟩
  · exact .inr (utc_of_not inside)

theorem times_error (undated : ¬Datable candidates) :
    (candidates.filterMap RankingCandidate.timestamp).mapM AwareDatetime.utc = .error .overflow := by
  unfold Datable at undated
  push Not at undated
  obtain ⟨candidate, member, time, stamped, outside⟩ := undated
  apply mapM_error (fun time _ => utc_ends time)
  exact ⟨time, mem_filterMap.mpr ⟨candidate, member, stamped⟩, utc_of_not outside⟩

theorem scores_error (referenceTime : Int) (undated : ¬Datable candidates) :
    candidates.mapM (scoreCandidate alphabet query referenceTime) = .error .overflow := by
  have ends : ∀ candidate ∈ candidates, (∃ item, scoreCandidate alphabet query referenceTime candidate = .ok item) ∨
      scoreCandidate alphabet query referenceTime candidate = .error .overflow := by
    intro candidate _
    by_cases inside : ∀ time ∈ candidate.timestamp, InCalendar time
    · obtain ⟨item, scored, _⟩ := scoreCandidate_of_inCalendar referenceTime inside
      exact .inl ⟨item, scored⟩
    · push Not at inside
      obtain ⟨time, stamped, outside⟩ := inside
      exact .inr (scoreCandidate_of_not referenceTime stamped outside)
  unfold Datable at undated
  push Not at undated
  obtain ⟨candidate, member, time, stamped, outside⟩ := undated
  exact mapM_error ends ⟨candidate, member, scoreCandidate_of_not referenceTime stamped outside⟩

theorem scores_ok (alphabet : Alphabet) (query : Option String) (referenceTime : Int) (datable : Datable candidates) :
    ∃ scored, candidates.mapM (scoreCandidate alphabet query referenceTime) = .ok scored ∧
      scored.map RankedCandidate.candidate = candidates ∧ ∀ item ∈ scored, item.totalScore ≤ 10000 := by
  induction candidates with
  | nil => exact ⟨[], rfl, rfl, by simp⟩
  | cons candidate rest ih =>
    obtain ⟨item, one, own, fits⟩ := scoreCandidate_of_inCalendar referenceTime (datable candidate mem_cons_self)
    obtain ⟨items, more, theirs, others⟩ := ih fun other member => datable other (mem_cons_of_mem candidate member)
    refine ⟨item :: items, ?_, by rw [map_cons, own, theirs], forall_mem_cons.mpr ⟨fits, others⟩⟩
    rw [mapM_cons, one, more]
    rfl

theorem resolve_perm (same : candidates.Perm others) : resolveReferenceTime candidates reference = resolveReferenceTime others reference := by
  cases reference with
  | some time => cases time <;> rfl
  | none =>
    have dated : Datable candidates ↔ Datable others :=
      ⟨fun datable candidate member => datable candidate (same.mem_iff.mpr member),
        fun datable candidate member => datable candidate (same.mem_iff.mp member)⟩
    unfold resolveReferenceTime
    by_cases datable : Datable candidates
    · rw [times_ok datable, times_ok (dated.mp datable)]
      have times := (same.filterMap RankingCandidate.timestamp).map AwareDatetime.instant
      exact congrArg (fun greatest : Option Int => (Except.ok (greatest.getD 0) : Except RankingError Int)) (max?_perm times)
    · rw [times_error datable, times_error fun other => datable (dated.mpr other)]

theorem resolve_ok (datable : Datable candidates) (usable : ReferenceTime.Usable reference) :
    ∃ referenceTime, resolveReferenceTime candidates reference = .ok referenceTime := by
  cases reference with
  | none =>
    unfold resolveReferenceTime
    rw [times_ok datable]
    exact ⟨_, rfl⟩
  | some time =>
    cases time with
    | naive => exact absurd usable id
    | aware time => exact ⟨_, utc_of_inCalendar usable⟩

theorem usable_of_resolved {referenceTime : Int} (resolved : resolveReferenceTime candidates reference = .ok referenceTime) :
    ReferenceTime.Usable reference := by
  cases reference with
  | none => trivial
  | some time =>
    cases time with
    | naive => cases resolved
    | aware time =>
      by_contra outside
      have refused : AwareDatetime.utc time = .ok referenceTime := resolved
      rw [utc_of_not outside] at refused
      cases refused

theorem sortKey_key {one two : RankedCandidate} (same : sortKey one = sortKey two) : one.candidate.key = two.candidate.key :=
  (Prod.mk.inj (toLex.injective same)).2

theorem rank_perm (same : candidates.Perm others) : rank alphabet query reference candidates = rank alphabet query reference others := by
  have keys := (same.map RankingCandidate.key).nodup_iff
  unfold rank
  by_cases distinct : (candidates.map RankingCandidate.key).Nodup
  · rw [if_neg (not_not.mpr distinct), if_neg (not_not.mpr (keys.mp distinct)), resolve_perm same]
    cases resolved : resolveReferenceTime others reference with
    | error error => rfl
    | ok referenceTime =>
      dsimp only [bind, Except.bind]
      by_cases datable : Datable candidates
      · obtain ⟨scored, done, own, _⟩ := scores_ok alphabet query referenceTime datable
        obtain ⟨scored', done', permuted⟩ := mapM_perm same done
        rw [done, done']
        refine congrArg Except.ok (sortedBy_congr permuted ?_)
        intro first member second also equal
        have nodup : (scored.map fun item => item.candidate.key).Nodup := by
          rw [← own, map_map] at distinct
          exact distinct
        exact inj_on_of_nodup_map nodup member also (sortKey_key equal)
      · have dated : ¬Datable others := fun other => datable fun candidate member => other candidate (same.mem_iff.mp member)
        rw [scores_error referenceTime datable, scores_error referenceTime dated]
  · rw [if_pos distinct, if_pos fun other => distinct (keys.mpr other)]

/-- Candidates are ranked exactly when their keys differ and the times that are read have values in UTC. -/
theorem rank_returns_iff : (∃ ranked, rank alphabet query reference candidates = .ok ranked) ↔
    (candidates.map RankingCandidate.key).Nodup ∧ Datable candidates ∧ ReferenceTime.Usable reference := by
  unfold rank
  constructor
  · rintro ⟨ranked, done⟩
    by_cases distinct : (candidates.map RankingCandidate.key).Nodup
    · rw [if_neg (not_not.mpr distinct)] at done
      obtain ⟨referenceTime, resolved, rest⟩ := bind_ok.mp done
      obtain ⟨scored, each, _⟩ := bind_ok.mp rest
      refine ⟨distinct, ?_, usable_of_resolved resolved⟩
      by_contra undated
      rw [scores_error referenceTime undated] at each
      cases each
    · rw [if_pos distinct] at done
      cases done
  · rintro ⟨distinct, datable, usable⟩
    obtain ⟨referenceTime, resolved⟩ := resolve_ok datable usable
    obtain ⟨scored, each, _⟩ := scores_ok alphabet query referenceTime datable
    use sortedBy sortKey scored
    rw [if_neg (not_not.mpr distinct), resolved]
    dsimp only [bind, Except.bind]
    rw [each]

theorem rank_sound {ranked : List RankedCandidate} (done : rank alphabet query reference candidates = .ok ranked) :
    (ranked.map RankedCandidate.candidate).Perm candidates ∧ (∀ item ∈ ranked, item.totalScore ≤ 10000) ∧
      ranked.Pairwise fun one two => sortKey one < sortKey two := by
  obtain ⟨distinct, datable, _⟩ := rank_returns_iff.mp ⟨ranked, done⟩
  unfold rank at done
  rw [if_neg (not_not.mpr distinct)] at done
  obtain ⟨referenceTime, _, rest⟩ := bind_ok.mp done
  obtain ⟨scored, each, same⟩ := bind_ok.mp rest
  cases same
  obtain ⟨items, also, own, fits⟩ := scores_ok alphabet query referenceTime datable
  rw [each] at also
  cases also
  have permuted : ((sortedBy sortKey scored).map RankedCandidate.candidate).Perm candidates := by
    have moved := (sortedBy_perm sortKey scored).map RankedCandidate.candidate
    rw [own] at moved
    exact moved
  have nodup : ((sortedBy sortKey scored).map fun item => item.candidate.key).Nodup := by
    have keys := (permuted.map RankingCandidate.key).nodup_iff.mpr distinct
    rw [map_map] at keys
    exact keys
  refine ⟨permuted, fun item member => fits item (mem_sortedBy.mp member), ?_⟩
  have unlike : (sortedBy sortKey scored).Pairwise fun one two => one.candidate.key ≠ two.candidate.key := pairwise_map.mp nodup
  apply (sortedBy_sorted sortKey scored).imp₂ ?_ unlike
  intro one two less differ
  exact lt_of_le_of_ne less fun same => differ (sortKey_key same)

end

/-- The ranking is one order of the candidates, whatever the order in which they are given, or one refusal. -/
theorem rank_canonical (alphabet : Alphabet) (query : Option String) (reference : Option ReferenceTime) :
    (∀ candidates others : List RankingCandidate, candidates.Perm others →
      rank alphabet query reference candidates = rank alphabet query reference others) ∧
    (∀ candidates, (∃ ranked, rank alphabet query reference candidates = .ok ranked) ↔
      (candidates.map RankingCandidate.key).Nodup ∧ Datable candidates ∧ ReferenceTime.Usable reference) ∧
    (∀ candidates ranked, rank alphabet query reference candidates = .ok ranked →
      (ranked.map RankedCandidate.candidate).Perm candidates ∧ (∀ item ∈ ranked, item.totalScore ≤ 10000) ∧
        ranked.Pairwise fun one two => sortKey one < sortKey two) ∧
    (∀ one : RankedCandidate, ¬sortKey one < sortKey one) ∧
    (∀ one two three : RankedCandidate, sortKey one < sortKey two → sortKey two < sortKey three → sortKey one < sortKey three) ∧
    (∀ one two : RankedCandidate, one.candidate.key ≠ two.candidate.key → sortKey one < sortKey two ∨ sortKey two < sortKey one) :=
  ⟨fun _ _ same => rank_perm same, fun _ => rank_returns_iff, fun _ _ done => rank_sound done, fun one => lt_irrefl (sortKey one),
    fun _ _ _ first second => first.trans second, fun _ _ differ => lt_or_gt_of_ne fun same => differ (sortKey_key same)⟩

/-- A multiset with one key twice has no ranking. -/
theorem rank_refuses_one_key_twice : ¬∀ (alphabet : Alphabet) (query : Option String) (reference : Option ReferenceTime)
    (candidates : List RankingCandidate), ∃ ranked, rank alphabet query reference candidates = .ok ranked ∧
      (ranked.map RankedCandidate.candidate).Perm candidates := by
  intro every
  let candidate : RankingCandidate := ⟨"TSK-1", none, none, none, none, 0, "", none, none, none, none, by decide⟩
  obtain ⟨ranked, done, _⟩ := every ⟨id, id, id, fun _ => false, fun _ => true⟩ none none [candidate, candidate]
  exact absurd (rank_returns_iff.mp ⟨ranked, done⟩).1 (by decide)

end Workctx.Retrieval
