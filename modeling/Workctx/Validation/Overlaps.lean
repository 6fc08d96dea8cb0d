import Workctx.Validation.ClaimRules

/-! Which claims the sweep reports. It reads a missing bound as the first or the last instant of the calendar, while
an instant with an offset may lie outside of it. -/

namespace Workctx.Validation
open Workctx.Domain List

/-- `_claims` -/
structure ClaimTable where
  claims : List Claim
  distinct : (claims.map Claim.id).Nodup

/-- `CLAIM-INTERVAL`: the claims that are reported. -/
def claimIntervals (claims : List Claim) : List Claim := claims.filter invalidInterval

def Covers (claim : Claim) (instant : Int) : Prop :=
  (∀ start ∈ claim.validFrom, start.instant ≤ instant) ∧ ∀ finish ∈ claim.validTo, instant < finish.instant

def Contradicts (one two : Claim) : Prop := ∃ instant, Covers one instant ∧ Covers two instant

def Compared (claim : Claim) : Prop :=
  claim.status = .current ∧ ∀ start ∈ claim.validFrom, ∀ finish ∈ claim.validTo, start.instant < finish.instant

def Alike (one two : Claim) : Prop := one.subject = two.subject ∧ one.predicate = two.predicate

def Precedes (one two : Claim) : Prop := claimStart one < claimStart two ∨ claimStart one = claimStart two ∧ one.id < two.id

namespace ClaimTable

/-- A claim that is compared with another one, and comes before it. -/
structure Earlier (table : ClaimTable) (earlier claim : Claim) : Prop where
  member : earlier ∈ table.claims
  compared : Compared earlier
  alike : Alike earlier claim
  precedes : Precedes earlier claim

/-- The check reports the claims that contradict earlier ones, and those that end before they start. -/
structure Reported (table : ClaimTable) : Prop where
  silent : claimCurrentOverlaps table.claims = [] ↔ ∀ one ∈ table.claims, ∀ two ∈ table.claims, one.id ≠ two.id →
    Compared one → Compared two → Alike one two → ¬Contradicts one two
  flagged : ∀ claim, claim ∈ claimCurrentOverlaps table.claims ↔
    claim ∈ table.claims ∧ Compared claim ∧ ∃ earlier, table.Earlier earlier claim ∧ Contradicts earlier claim
  interval : ∀ claim ∈ table.claims, claim ∈ claimIntervals table.claims ↔
    ∃ start finish, claim.validFrom = some start ∧ claim.validTo = some finish ∧ finish.instant ≤ start.instant

/-- No claim is misread for its bounds at the ends of the calendar. -/
structure Readable (table : ClaimTable) : Prop where
  /-- A claim from `datetime.max` on that comes after an open-ended one also comes after one that ends later. -/
  late : ∀ claim ∈ table.claims, Compared claim → ∀ start, claim.validFrom = some start → latest ≤ start.instant →
    (∃ earlier, table.Earlier earlier claim ∧ earlier.validTo = none) →
      ∃ earlier, table.Earlier earlier claim ∧ ∃ finish, earlier.validTo = some finish ∧ start.instant < finish.instant
  /-- A claim without a start does not come after claims alone that all end by `datetime.min`. -/
  early : ∀ claim ∈ table.claims, Compared claim → claim.validFrom = none → earliest < claimEnd claim →
    (∃ earlier, table.Earlier earlier claim) → ∃ earlier, table.Earlier earlier claim ∧ earliest < claimEnd earlier
  /-- One that ends by then itself comes after others that last longer if and only if it comes after one that starts before its end. -/
  first : ∀ claim ∈ table.claims, Compared claim → claim.validFrom = none → claimEnd claim ≤ earliest →
    ((∃ earlier, table.Earlier earlier claim ∧ earliest < claimEnd earlier) ↔
      ∃ earlier, table.Earlier earlier claim ∧ ∀ start ∈ earlier.validFrom, start.instant < claimEnd claim)

end ClaimTable

/-! Intervals. -/

theorem invalidInterval_iff {claim : Claim} : invalidInterval claim = true ↔
    ∃ start finish, claim.validFrom = some start ∧ claim.validTo = some finish ∧ finish.instant ≤ start.instant := by
  unfold invalidInterval
  split
  · next start finish first last => simp [first, last]
  · next absent =>
    refine ⟨fun wrong => absurd wrong (by simp), ?_⟩
    intro ⟨start, finish, first, last, _⟩
    exact absurd last (absent start finish first)

theorem compared_iff {claim : Claim} : Compared claim ↔ claim.status = .current ∧ invalidInterval claim = false := by
  unfold Compared
  rw [← Bool.not_eq_true, invalidInterval_iff]
  refine and_congr_right fun _ => ⟨?_, ?_⟩
  · intro ordered ⟨start, finish, first, last, reversed⟩
    have := ordered start first finish last
    omega
  · intro valid start first finish last
    by_contra reversed
    exact valid ⟨start, finish, first, last, by omega⟩

variable {one two : Claim}

/-- Two intervals have an instant in common when each starts before the other one ends. -/
theorem contradicts_iff (first : Compared one) (second : Compared two) :
    Contradicts one two ↔ (∀ start ∈ one.validFrom, ∀ finish ∈ two.validTo, start.instant < finish.instant) ∧
      ∀ start ∈ two.validFrom, ∀ finish ∈ one.validTo, start.instant < finish.instant := by
  constructor
  · intro ⟨instant, here, there⟩
    constructor
    · intro start opens finish closes
      have := here.1 start opens
      have := there.2 finish closes
      omega
    · intro start opens finish closes
      have := there.1 start opens
      have := here.2 finish closes
      omega
  · intro ⟨meets, meets'⟩
    have own := first.2
    have other := second.2
    unfold Contradicts Covers
    cases low : one.validFrom with
    | some start =>
      cases low' : two.validFrom with
      | some start' =>
        refine ⟨max start.instant start'.instant, ?_⟩
        simp only [low, low', Option.mem_some_iff, forall_eq'] at *
        exact ⟨⟨by omega, fun finish closes => by have := own finish closes; have := meets' finish closes; omega⟩,
          by omega, fun finish closes => by have := meets finish closes; have := other finish closes; omega⟩
      | none =>
        refine ⟨start.instant, ?_⟩
        simp only [low, low', Option.mem_some_iff, forall_eq', Option.not_mem_none, IsEmpty.forall_iff, implies_true] at *
        exact ⟨⟨by omega, own⟩, trivial, meets⟩
    | none =>
      cases low' : two.validFrom with
      | some start' =>
        refine ⟨start'.instant, ?_⟩
        simp only [low, low', Option.mem_some_iff, forall_eq', Option.not_mem_none, IsEmpty.forall_iff, implies_true] at *
        exact ⟨⟨trivial, meets'⟩, by omega, other⟩
      | none =>
        cases high : one.validTo with
        | some finish =>
          cases high' : two.validTo with
          | some finish' => exact ⟨min finish.instant finish'.instant - 1, by simp only [Option.mem_some_iff, forall_eq', Option.not_mem_none, IsEmpty.forall_iff, implies_true, true_and]; omega⟩
          | none => exact ⟨finish.instant - 1, by simp only [Option.mem_some_iff, forall_eq', Option.not_mem_none, IsEmpty.forall_iff, implies_true, and_true, true_and]; omega⟩
        | none =>
          cases high' : two.validTo with
          | some finish' => exact ⟨finish'.instant - 1, by simp only [Option.mem_some_iff, forall_eq', Option.not_mem_none, IsEmpty.forall_iff, implies_true, and_true, true_and]; omega⟩
          | none => exact ⟨0, by simp⟩

/-! The reported claims. -/

theorem Precedes.asymm (first : Precedes one two) : ¬Precedes two one := by
  intro second
  rcases first with less | ⟨same, before⟩
  · rcases second with more | ⟨equal, _⟩ <;> omega
  · rcases second with more | ⟨_, after⟩
    · omega
    · exact absurd after (String.lt_asymm before)

theorem precedes_of_startsBefore (before : startsBefore one two = true) (apart : one.id ≠ two.id) : Precedes one two := by
  unfold startsBefore at before
  rw [decide_eq_true_eq] at before
  refine before.imp_right fun ⟨same, ids⟩ => ⟨same, ?_⟩
  exact String.not_le.mp fun after => apart (String.le_antisymm ids after)

theorem precedes_total (apart : one.id ≠ two.id) : Precedes one two ∨ Precedes two one := by
  rcases Bool.or_eq_true_iff.mp (startsBefore_total one two) with before | after
  · exact .inl (precedes_of_startsBefore before apart)
  · exact .inr (precedes_of_startsBefore after apart.symm)

theorem mem_overlapGroup {claims : List Claim} {subject predicate : String} {claim : Claim} :
    claim ∈ overlapGroup claims subject predicate ↔
      claim ∈ claims ∧ Compared claim ∧ claim.subject = subject ∧ claim.predicate = predicate := by
  unfold overlapGroup
  rw [mem_filter, compared_iff]
  simp only [Bool.and_eq_true, beq_iff_eq, Bool.not_eq_true']
  tauto

variable {table : ClaimTable} {claim : Claim}

theorem mem_claimCurrentOverlaps : claim ∈ claimCurrentOverlaps table.claims ↔
    claim ∈ table.claims ∧ Compared claim ∧ ∃ earlier, table.Earlier earlier claim ∧ claimStart claim < claimEnd earlier := by
  have swept : ∀ subject predicate, claim ∈ Sweep.sweep claimStart claimEnd none
      ((overlapGroup table.claims subject predicate).mergeSort startsBefore) ↔
      claim ∈ overlapGroup table.claims subject predicate ∧
        ∃ earlier ∈ overlapGroup table.claims subject predicate, Precedes earlier claim ∧ claimStart claim < claimEnd earlier := by
    intro subject predicate
    have permuted := mergeSort_perm (overlapGroup table.claims subject predicate) startsBefore
    have ids : (((overlapGroup table.claims subject predicate).mergeSort startsBefore).map Claim.id).Nodup :=
      (permuted.map Claim.id).nodup_iff.mpr (table.distinct.sublist (filter_sublist.map _))
    have sorted : ((overlapGroup table.claims subject predicate).mergeSort startsBefore).Pairwise Precedes := by
      have ordered := pairwise_mergeSort startsBefore_trans startsBefore_total (overlapGroup table.claims subject predicate)
      exact ordered.imp₂ (fun _ _ before apart => precedes_of_startsBefore before apart) (pairwise_map.mp ids)
    rw [Sweep.mem_sweep_sorted (fun _ _ => Precedes.asymm) sorted]
    simp only [permuted.mem_iff]
  unfold claimCurrentOverlaps
  dsimp only
  rw [mem_flatMap]
  constructor
  · intro ⟨group, _, found⟩
    obtain ⟨inside, earlier, member, precedes, reaches⟩ := (swept group.1 group.2).mp found
    obtain ⟨here, compared, subject, predicate⟩ := mem_overlapGroup.mp inside
    obtain ⟨there, also, subject', predicate'⟩ := mem_overlapGroup.mp member
    exact ⟨here, compared, earlier, ⟨there, also, ⟨subject'.trans subject.symm, predicate'.trans predicate.symm⟩, precedes⟩, reaches⟩
  · intro ⟨here, compared, earlier, before, reaches⟩
    refine ⟨(claim.subject, claim.predicate), ?_, (swept _ _).mpr ⟨mem_overlapGroup.mpr ⟨here, compared, rfl, rfl⟩, ?_⟩⟩
    · rw [mem_eraseDups]
      exact mem_map.mpr ⟨claim, mem_filter.mpr ⟨here, by rw [compared.1]; rfl⟩, rfl⟩
    · exact ⟨earlier, mem_overlapGroup.mpr ⟨before.member, before.compared, before.alike.1, before.alike.2⟩, before.precedes, reaches⟩

/-! The ends of the calendar. -/

theorem Precedes.start_le (before : Precedes one two) : claimStart one ≤ claimStart two := by
  rcases before with less | ⟨same, _⟩ <;> omega

variable {earlier : Claim}

section
variable (compared : Compared claim)
include compared

section
variable (before : table.Earlier earlier claim)
include before

theorem contradicts_of_start {start : AwareDatetime}
    (opens : claim.validFrom = some start) :
    Contradicts earlier claim ↔ ∀ finish ∈ earlier.validTo, start.instant < finish.instant := by
  rw [contradicts_iff before.compared compared, opens]
  simp only [Option.mem_some_iff, forall_eq']
  refine and_iff_right ?_
  intro first opens' finish closes
  have order := before.precedes.start_le
  have own := compared.2 start opens finish closes
  unfold claimStart at order
  rw [opens, opens'] at order
  simp only [Option.map_some, Option.getD_some] at order
  omega

theorem contradicts_of_open (opens : claim.validFrom = none) :
    Contradicts earlier claim ↔ ∀ start ∈ earlier.validFrom, ∀ finish ∈ claim.validTo, start.instant < finish.instant := by
  rw [contradicts_iff before.compared compared, opens]
  simp

theorem contradicts_of_early (opens : claim.validFrom = none)
    (ends : earliest < claimEnd claim) : Contradicts earlier claim := by
  rw [contradicts_of_open compared before opens]
  intro start opens' finish closes
  have order := before.precedes.start_le
  unfold claimStart at order
  unfold claimEnd at ends
  rw [opens, opens'] at order
  rw [closes] at ends
  simp only [Option.map_some, Option.getD_some, Option.map_none, Option.getD_none] at order ends
  omega

theorem contradicts_of_first (opens : claim.validFrom = none)
    (ends : claimEnd claim ≤ earliest) :
    Contradicts earlier claim ↔ ∀ start ∈ earlier.validFrom, start.instant < claimEnd claim := by
  rw [contradicts_of_open compared before opens]
  unfold claimEnd at ends ⊢
  cases closes : claim.validTo with
  | none =>
    rw [closes] at ends
    exact absurd ends (by decide)
  | some finish => simp

end

end

theorem found_iff (readable : table.Readable) (member : claim ∈ table.claims) (compared : Compared claim) :
    (∃ earlier, table.Earlier earlier claim ∧ claimStart claim < claimEnd earlier) ↔
      ∃ earlier, table.Earlier earlier claim ∧ Contradicts earlier claim := by
  cases opens : claim.validFrom with
  | some start =>
    have at_ : claimStart claim = start.instant := by simp [claimStart, opens]
    rw [at_]
    constructor
    · intro ⟨earlier, before, reaches⟩
      refine ⟨earlier, before, (contradicts_of_start compared before opens).mpr ?_⟩
      intro finish closes
      simpa [claimEnd, Option.mem_def.mp closes] using reaches
    · intro ⟨earlier, before, contradicts⟩
      have after := (contradicts_of_start compared before opens).mp contradicts
      cases closes : earlier.validTo with
      | some finish => exact ⟨earlier, before, by simpa [claimEnd, closes] using after finish closes⟩
      | none =>
        by_cases far : latest ≤ start.instant
        · obtain ⟨other, before', finish, closes', reaches⟩ := readable.late claim member compared start opens far ⟨earlier, before, closes⟩
          exact ⟨other, before', by simpa [claimEnd, closes'] using reaches⟩
        · exact ⟨earlier, before, by simpa [claimEnd, closes] using far⟩
  | none =>
    have at_ : claimStart claim = earliest := by simp [claimStart, opens]
    rw [at_]
    by_cases ends : earliest < claimEnd claim
    · constructor
      · intro ⟨earlier, before, _⟩
        exact ⟨earlier, before, contradicts_of_early compared before opens ends⟩
      · intro ⟨earlier, before, _⟩
        exact readable.early claim member compared opens ends ⟨earlier, before⟩
    · rw [readable.first claim member compared opens (not_lt.mp ends)]
      refine exists_congr fun earlier => and_congr_right fun before => ?_
      exact (contradicts_of_first compared before opens (not_lt.mp ends)).symm

theorem readable_of_found (found : ∀ claim ∈ table.claims, Compared claim →
    ((∃ earlier, table.Earlier earlier claim ∧ claimStart claim < claimEnd earlier) ↔
      ∃ earlier, table.Earlier earlier claim ∧ Contradicts earlier claim)) : table.Readable where
  late := by
    intro claim member compared start opens far ⟨earlier, before, closes⟩
    have contradicts : Contradicts earlier claim := by
      rw [contradicts_of_start compared before opens, closes]
      simp
    obtain ⟨other, before', reaches⟩ := (found claim member compared).mpr ⟨earlier, before, contradicts⟩
    have at_ : claimStart claim = start.instant := by simp [claimStart, opens]
    rw [at_] at reaches
    unfold claimEnd at reaches
    cases closes' : other.validTo with
    | none =>
      rw [closes'] at reaches
      simp only [Option.map_none, Option.getD_none] at reaches
      omega
    | some finish =>
      rw [closes'] at reaches
      exact ⟨other, before', finish, closes', reaches⟩
  early := by
    intro claim member compared opens ends ⟨earlier, before⟩
    have at_ : claimStart claim = earliest := by simp [claimStart, opens]
    rw [← at_]
    exact (found claim member compared).mpr ⟨earlier, before, contradicts_of_early compared before opens ends⟩
  first := by
    intro claim member compared opens ends
    have at_ : claimStart claim = earliest := by simp [claimStart, opens]
    rw [← at_, found claim member compared]
    refine exists_congr fun earlier => and_congr_right fun before => ?_
    exact contradicts_of_first compared before opens (at_ ▸ ends)

/-- The check reports what it is for if and only if no claim is misread. -/
theorem overlaps_reported_iff (table : ClaimTable) : table.Reported ↔ table.Readable := by
  constructor
  · intro reported
    apply readable_of_found
    intro claim member compared
    have exact_ := reported.flagged claim
    rw [mem_claimCurrentOverlaps] at exact_
    simpa [member, compared] using exact_
  · intro readable
    have flagged : ∀ claim, claim ∈ claimCurrentOverlaps table.claims ↔
        claim ∈ table.claims ∧ Compared claim ∧ ∃ earlier, table.Earlier earlier claim ∧ Contradicts earlier claim := by
      intro claim
      rw [mem_claimCurrentOverlaps]
      exact and_congr_right fun member => and_congr_right fun compared => found_iff readable member compared
    refine ⟨?_, flagged, ?_⟩
    · rw [List.eq_nil_iff_forall_not_mem]
      constructor
      · intro silent one member two also apart first second alike ⟨instant, here, there⟩
        rcases precedes_total apart with before | after
        · exact silent two ((flagged two).mpr ⟨also, second, one, ⟨member, first, alike, before⟩, instant, here, there⟩)
        · exact silent one ((flagged one).mpr ⟨member, first, two,
            ⟨also, second, ⟨alike.1.symm, alike.2.symm⟩, after⟩, instant, there, here⟩)
      · intro apart claim found
        obtain ⟨member, compared, earlier, before, contradicts⟩ := (flagged claim).mp found
        refine apart earlier before.member claim member ?_ before.compared compared before.alike contradicts
        intro same
        have equal := List.inj_on_of_nodup_map table.distinct before.member member same
        exact before.precedes.asymm (equal ▸ before.precedes)
    · intro claim member
      unfold claimIntervals
      rw [List.mem_filter, invalidInterval_iff]
      exact and_iff_right member

/-! An open-ended claim, and one from the last instant of the calendar on. -/

namespace Sample

def dated (id : String) (validFrom : Option AwareDatetime) : Claim :=
  { id, validFrom
    subject := "workctx://lab/project/PRJ-one"
    predicate := "status"
    object := .null
    observedAt := ⟨0, 0⟩
    validTo := none
    status := .current
    supersedes := none
    supersededBy := none
    confidence := "high"
    sourceObservations := ["workctx://lab/observation/EVD-20260101-one-01%23OBS-001"] }

def ending : ClaimTable := ⟨[dated "CLM-2026-00001" none, dated "CLM-2026-00002" (some ⟨latest, 0⟩)], by decide⟩

end Sample

/-- Two current claims that hold together at the last instant, and no report. -/
theorem overlap_unreported : claimCurrentOverlaps Sample.ending.claims = [] ∧ ¬Sample.ending.Reported := by
  have silent : claimCurrentOverlaps Sample.ending.claims = [] := by
    rw [List.eq_nil_iff_forall_not_mem]
    intro claim found
    obtain ⟨member, _, earlier, before, reaches⟩ := mem_claimCurrentOverlaps.mp found
    have ends : claimEnd earlier = latest := by
      rcases List.mem_pair.mp before.member with same | same <;> rw [same] <;> rfl
    rcases List.mem_pair.mp member with same | same
    · have order := before.precedes
      rcases List.mem_pair.mp before.member with same' | same'
      · rw [same, same'] at order
        exact order.asymm order
      · rw [same, same'] at order
        exact absurd order.start_le (by decide)
    · rw [ends, same] at reaches
      exact absurd reaches (by decide)
  refine ⟨silent, fun reported => ?_⟩
  have apart := reported.silent.mp silent (Sample.dated "CLM-2026-00001" none) (by simp [Sample.ending])
    (Sample.dated "CLM-2026-00002" (some ⟨latest, 0⟩)) (by simp [Sample.ending]) (by decide)
  exact apart ⟨rfl, by simp [Sample.dated]⟩ ⟨rfl, by simp [Sample.dated]⟩ ⟨rfl, rfl⟩ ⟨latest, by simp [Covers, Sample.dated]⟩

end Workctx.Validation
