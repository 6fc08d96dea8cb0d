import Workctx.Text.Matching

/-! Patterns of signs, with conditions on the signs around them: the lengths of what they match at a
place of a text, and whether they match anywhere. -/

namespace Workctx.Text
open List

inductive Pattern (σ : Type) where
  | empty
  | one (test : σ → Bool)
  /-- At least and at most so many signs that pass a test -/
  | run (test : σ → Bool) (least : Nat) (most : Option Nat)
  | seq (first second : Pattern σ)
  | alt (first second : Pattern σ)
  /-- No sign in front that passes a test -/
  | notBehind (test : σ → Bool)
  /-- No sign that passes a test follows. -/
  | notAhead (test : σ → Bool)

namespace Pattern
variable {σ : Type}

def lengths : Pattern σ → Option σ → List σ → List Nat
  | .empty, _, _ => [0]
  | .one test, _, text => if text.head?.any test then [1] else []
  | .run test least most, _, text =>
    let longest := (text.takeWhile test).length
    (List.range (min longest (most.getD longest) + 1)).filter fun length => least ≤ length
  | .seq first second, before, text =>
    (first.lengths before text).flatMap fun length =>
      (second.lengths (lastOr before (text.take length)) (text.drop length)).map fun more => length + more
  | .alt first second, before, text => first.lengths before text ++ second.lengths before text
  | .notBehind test, before, _ => if before.any test then [] else [0]
  | .notAhead test, _, text => if text.head?.any test then [] else [0]

/-- The pattern matches somewhere (`search`). -/
def occurs (pattern : Pattern σ) : Option σ → List σ → Bool
  | before, [] => !(pattern.lengths before []).isEmpty
  | before, sign :: rest => !(pattern.lengths before (sign :: rest)).isEmpty || occurs pattern (some sign) rest

def longest (pattern : Pattern σ) : Matcher σ Unit := fun before text =>
  ((pattern.lengths before text).filter (0 < ·)).max?.map fun length => ((), length)

/-- The signs of a text, each of them up to what a view keeps of it. -/
def literal {τ : Type} [BEq τ] (view : σ → τ) : List τ → Pattern σ
  | [] => .empty
  | sign :: rest => .seq (.one fun other => view other == sign) (literal view rest)

def oneOf (first : Pattern σ) (others : List (Pattern σ)) : Pattern σ := others.foldl .alt first

def chain (first : Pattern σ) (others : List (Pattern σ)) : Pattern σ := others.foldl .seq first

def optional (pattern : Pattern σ) : Pattern σ := .alt pattern .empty

def needsSign : Pattern σ → Bool
  | .one _ => true
  | .run _ least _ => 0 < least
  | .seq first second => first.needsSign || second.needsSign
  | .alt first second => first.needsSign && second.needsSign
  | _ => false

variable {pattern : Pattern σ} {before : Option σ} {text front back behind : List σ} {length : Nat}

variable {test : σ → Bool}

theorem mem_run {least : Nat} {most : Option Nat} :
    length ∈ (Pattern.run test least most).lengths before text ↔
      least ≤ length ∧ (∀ limit ∈ most, length ≤ limit) ∧ length ≤ (text.takeWhile test).length := by
  change length ∈ (List.range (min (text.takeWhile test).length (most.getD (text.takeWhile test).length) + 1)).filter _ ↔ _
  rw [mem_filter, mem_range, decide_eq_true_eq]
  cases most with
  | none =>
    simp only [Option.getD_none, Nat.min_self, Option.mem_def, reduceCtorEq, false_implies, implies_true, true_and]
    omega
  | some limit =>
    simp only [Option.getD_some, Option.mem_def, Option.some.injEq, forall_eq']
    omega

theorem mem_seq {first second : Pattern σ} :
    length ∈ (Pattern.seq first second).lengths before text ↔
      ∃ one ∈ first.lengths before text, ∃ two ∈ second.lengths (lastOr before (text.take one)) (text.drop one), one + two = length := by
  change length ∈ (first.lengths before text).flatMap _ ↔ _
  simp only [mem_flatMap, mem_map]

theorem mem_one : length ∈ (Pattern.one test).lengths before text ↔ length = 1 ∧ text.head?.any test = true := by
  change length ∈ (if text.head?.any test then [1] else []) ↔ _
  split
  · next passes => simp [passes]
  · next fails => simp [fails]

theorem mem_notBehind :
    length ∈ (Pattern.notBehind test).lengths before text ↔ length = 0 ∧ before.any test = false := by
  change length ∈ (if before.any test then [] else [0]) ↔ _
  split
  · next passes => simp [passes]
  · next fails => simp [fails]

theorem mem_notAhead :
    length ∈ (Pattern.notAhead test).lengths before text ↔ length = 0 ∧ text.head?.any test = false := by
  change length ∈ (if text.head?.any test then [] else [0]) ↔ _
  split
  · next passes => simp [passes]
  · next fails => simp [fails]

theorem lengths_le (member : length ∈ pattern.lengths before text) : length ≤ text.length := by
  induction pattern generalizing before text length with
  | empty => exact mem_singleton.mp member ▸ Nat.zero_le _
  | one test =>
    obtain ⟨rfl, passes⟩ := mem_one.mp member
    cases text with
    | nil => cases passes
    | cons sign rest => simp
  | run test least most => exact Nat.le_trans (mem_run.mp member).2.2 (List.takeWhile_prefix test).length_le
  | seq first second ihFirst ihSecond =>
    obtain ⟨one, here, two, there, rfl⟩ := mem_seq.mp member
    have short := ihFirst here
    have rest := ihSecond there
    rw [length_drop] at rest
    omega
  | alt first second ihFirst ihSecond =>
    rcases mem_append.mp member with here | there
    · exact ihFirst here
    · exact ihSecond there
  | notBehind test => exact (mem_notBehind.mp member).1 ▸ Nat.zero_le _
  | notAhead test => exact (mem_notAhead.mp member).1 ▸ Nat.zero_le _

theorem lengths_pos (needs : pattern.needsSign = true) (member : length ∈ pattern.lengths before text) : 0 < length := by
  induction pattern generalizing before text length with
  | empty => cases needs
  | one test => exact (mem_one.mp member).1 ▸ Nat.one_pos
  | run test least most => exact Nat.lt_of_lt_of_le (of_decide_eq_true needs) (mem_run.mp member).1
  | seq first second ihFirst ihSecond =>
    obtain ⟨one, here, two, there, rfl⟩ := mem_seq.mp member
    rcases Bool.or_eq_true_iff.mp needs with needsFirst | needsSecond
    · exact Nat.add_pos_left (ihFirst needsFirst here) two
    · exact Nat.add_pos_right one (ihSecond needsSecond there)
  | alt first second ihFirst ihSecond =>
    obtain ⟨needsFirst, needsSecond⟩ := Bool.and_eq_true_iff.mp needs
    rcases mem_append.mp member with here | there
    · exact ihFirst needsFirst here
    · exact ihSecond needsSecond there
  | notBehind test => cases needs
  | notAhead test => cases needs

theorem length_le_takeWhile :
    length ≤ (text.takeWhile test).length ↔ length ≤ text.length ∧ ∀ sign ∈ text.take length, test sign = true := by
  induction text generalizing length with
  | nil => simp
  | cons sign rest ih =>
    cases length with
    | zero => simp
    | succ length =>
      rw [takeWhile_cons]
      split
      · next passes => simp [ih, passes]
      · next fails => simp [fails]

theorem head_cut (cut : behind <+: back) (stops : (text ++ back).head?.any test = false) :
    (text ++ behind).head?.any test = false := by
  cases text with
  | cons sign rest => exact stops
  | nil =>
    obtain ⟨more, rfl⟩ := cut
    cases behind with
    | nil => rfl
    | cons sign rest => exact stops

theorem lengths_cut (member : length ∈ pattern.lengths before (text ++ back)) (within : length ≤ text.length)
    (cut : behind <+: back) : length ∈ pattern.lengths before (text ++ behind) := by
  induction pattern generalizing before text length with
  | empty => exact member
  | one test =>
    obtain ⟨rfl, passes⟩ := mem_one.mp member
    refine mem_one.mpr ⟨rfl, ?_⟩
    cases text with
    | nil => cases within
    | cons sign rest => exact passes
  | run test least most =>
    obtain ⟨enough, limited, long⟩ := mem_run.mp member
    have same : (text ++ behind).take length = (text ++ back).take length := by
      rw [take_append_of_le_length within, take_append_of_le_length within]
    refine mem_run.mpr ⟨enough, limited, length_le_takeWhile.mpr ⟨by rw [length_append]; omega, ?_⟩⟩
    rw [same]
    exact (length_le_takeWhile.mp long).2
  | seq first second ihFirst ihSecond =>
    obtain ⟨one, here, two, there, rfl⟩ := mem_seq.mp member
    have short : one ≤ text.length := by omega
    rw [take_append_of_le_length short, drop_append_of_le_length short] at there
    refine mem_seq.mpr ⟨one, ihFirst here short, two, ?_, rfl⟩
    rw [take_append_of_le_length short, drop_append_of_le_length short]
    exact ihSecond there (by rw [length_drop]; omega)
  | alt first second ihFirst ihSecond =>
    rcases mem_append.mp member with here | there
    · exact mem_append_left _ (ihFirst here within)
    · exact mem_append_right _ (ihSecond there within)
  | notBehind test => exact mem_notBehind.mpr (mem_notBehind.mp member)
  | notAhead test =>
    obtain ⟨none, stops⟩ := mem_notAhead.mp member
    exact mem_notAhead.mpr ⟨none, head_cut cut stops⟩

/-- A match is one as well where the text in front of it is cut off. -/
theorem lengths_start (member : length ∈ pattern.lengths before text) : length ∈ pattern.lengths none text := by
  induction pattern generalizing before text length with
  | empty => exact member
  | one test => exact mem_one.mpr (mem_one.mp member)
  | run test least most => exact mem_run.mpr (mem_run.mp member)
  | seq first second ihFirst ihSecond =>
    obtain ⟨one, here, two, there, rfl⟩ := mem_seq.mp member
    refine mem_seq.mpr ⟨one, ihFirst here, two, ?_, rfl⟩
    unfold lastOr at there ⊢
    cases last : (text.take one).getLast? with
    | none =>
      rw [last] at there
      exact ihSecond there
    | some sign =>
      rw [last] at there
      exact there
  | alt first second ihFirst ihSecond =>
    rcases mem_append.mp member with here | there
    · exact mem_append_left _ (ihFirst here)
    · exact mem_append_right _ (ihSecond there)
  | notBehind test => exact mem_notBehind.mpr ⟨(mem_notBehind.mp member).1, rfl⟩
  | notAhead test => exact mem_notAhead.mpr (mem_notAhead.mp member)

theorem occurs_iff : pattern.occurs before text = true ↔
    ∃ front rest, text = front ++ rest ∧ ∃ length, length ∈ pattern.lengths (lastOr before front) rest := by
  induction text generalizing before with
  | nil =>
    rw [occurs, Bool.not_eq_true', isEmpty_eq_false_iff_exists_mem]
    constructor
    · exact fun here => ⟨[], [], rfl, here⟩
    · intro ⟨front, rest, whole, here⟩
      obtain ⟨rfl, rfl⟩ := append_eq_nil_iff.mp whole.symm
      exact here
  | cons sign rest ih =>
    rw [occurs, Bool.or_eq_true, Bool.not_eq_true', isEmpty_eq_false_iff_exists_mem, ih]
    constructor
    · intro found
      rcases found with here | ⟨front, behind, rfl, there⟩
      · exact ⟨[], sign :: rest, rfl, here⟩
      · exact ⟨sign :: front, behind, rfl, by rw [lastOr_cons]; exact there⟩
    · intro ⟨front, behind, whole, found⟩
      cases front with
      | nil =>
        obtain rfl : sign :: rest = behind := whole
        exact .inl found
      | cons other front =>
        obtain ⟨rfl, rfl⟩ := List.cons.inj whole
        rw [lastOr_cons] at found
        exact .inr ⟨front, behind, rfl, found⟩

theorem longest_isSome : (pattern.longest before text).isSome = true ↔ ∃ length ∈ pattern.lengths before text, 0 < length := by
  rw [longest, Option.isSome_map, isSome_max?_iff]
  constructor
  · intro some
    obtain ⟨length, member⟩ := exists_mem_of_ne_nil _ some
    obtain ⟨inside, positive⟩ := mem_filter.mp member
    exact ⟨length, inside, of_decide_eq_true positive⟩
  · intro ⟨length, inside, positive⟩
    exact ne_nil_of_mem (mem_filter.mpr ⟨inside, decide_eq_true positive⟩)

theorem longest_within : pattern.longest.Within := by
  intro before text _ length found
  obtain ⟨longest, most, same⟩ := Option.map_eq_some_iff.mp found
  obtain ⟨_, rfl⟩ := Prod.mk.inj same
  have member := mem_filter.mp (max?_mem most)
  exact ⟨of_decide_eq_true member.2, lengths_le member.1⟩

end Pattern
end Workctx.Text
