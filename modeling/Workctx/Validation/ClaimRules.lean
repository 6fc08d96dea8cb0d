import Workctx.Domain.Claims
import Workctx.Validation.Sweep

/-! The rules about the claims of a workspace: their intervals, and the overlaps of current ones. -/

namespace Workctx.Validation
open Workctx.Domain

/-- `datetime.min` and `datetime.max` in UTC, in microseconds. -/
def earliest : Int := -62135596800000000
def latest : Int := 253402300799999999

def claimStart (claim : Claim) : Int := (claim.validFrom.map AwareDatetime.instant).getD earliest
def claimEnd (claim : Claim) : Int := (claim.validTo.map AwareDatetime.instant).getD latest

/-- `CLAIM-INTERVAL` -/
def invalidInterval (claim : Claim) : Bool :=
  match claim.validFrom, claim.validTo with
  | some start, some finish => decide (finish.instant ≤ start.instant)
  | _, _ => false

def overlapGroup (claims : List Claim) (subject predicate : String) : List Claim :=
  claims.filter fun claim => claim.status == .current && claim.subject == subject && claim.predicate == predicate &&
    !invalidInterval claim

def startsBefore (one two : Claim) : Bool :=
  decide (claimStart one < claimStart two ∨ claimStart one = claimStart two ∧ one.id ≤ two.id)

/-- `CLAIM-CURRENT-OVERLAP`: the claims that `_check_claim_rules` reports. -/
def claimCurrentOverlaps (claims : List Claim) : List Claim :=
  let groups := ((claims.filter fun claim => claim.status == .current).map fun claim => (claim.subject, claim.predicate)).eraseDups
  groups.flatMap fun group => Sweep.sweep claimStart claimEnd none ((overlapGroup claims group.1 group.2).mergeSort startsBefore)

structure Overlap (one two : Claim) : Prop where
  oneCurrent : one.status = .current
  twoCurrent : two.status = .current
  subject : one.subject = two.subject
  predicate : one.predicate = two.predicate
  oneInterval : invalidInterval one = false
  twoInterval : invalidInterval two = false
  meets : Sweep.Meets claimStart claimEnd one two

theorem Overlap.symm {one two : Claim} (overlap : Overlap one two) : Overlap two one :=
  ⟨overlap.twoCurrent, overlap.oneCurrent, overlap.subject.symm, overlap.predicate.symm, overlap.twoInterval, overlap.oneInterval,
    overlap.meets.symm⟩

theorem startsBefore_trans (one two three : Claim) (first : startsBefore one two = true) (second : startsBefore two three = true) :
    startsBefore one three = true := by
  unfold startsBefore at *
  simp only [decide_eq_true_eq] at *
  rcases first with early | ⟨same, before⟩ <;> rcases second with early' | ⟨same', before'⟩
  · exact .inl (by omega)
  · exact .inl (by omega)
  · exact .inl (by omega)
  · exact .inr ⟨by omega, String.le_trans before before'⟩

theorem startsBefore_total (one two : Claim) : (startsBefore one two || startsBefore two one) = true := by
  unfold startsBefore
  simp only [Bool.or_eq_true, decide_eq_true_eq]
  rcases lt_trichotomy (claimStart one) (claimStart two) with less | same | more
  · exact .inl (.inl less)
  · rcases String.le_total one.id two.id with before | after
    · exact .inl (.inr ⟨same, before⟩)
    · exact .inr (.inr ⟨same.symm, after⟩)
  · exact .inr (.inl more)

end Workctx.Validation
