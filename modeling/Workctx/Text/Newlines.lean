import Mathlib.Data.List.TakeWhile

/-! The lines of a text: cut behind the signs that end a line, a carriage return and a line feed as one end. -/

namespace Workctx.Text
open List

/-- The signs that end a line for `str.splitlines`. -/
def endsLine (c : Char) : Bool :=
  (0x0A ≤ c.toNat && c.toNat ≤ 0x0D) || (0x1C ≤ c.toNat && c.toNat ≤ 0x1E) || c.toNat == 0x85 || c.toNat == 0x2028 || c.toNat == 0x2029

def universalNewlines : List Char → List Char
  | [] => []
  | '\r' :: '\n' :: rest => '\n' :: universalNewlines rest
  | '\r' :: rest => '\n' :: universalNewlines rest
  | c :: rest => c :: universalNewlines rest

section
variable (ends : Char → Bool)

def cutLines : List Char → List (List Char)
  | [] => []
  | c :: rest =>
    if ends c && !(c == '\r' && rest.head? == some '\n') then [c] :: cutLines rest
    else match cutLines rest with
      | [] => [[c]]
      | first :: others => (c :: first) :: others

theorem cutLines_flatten (text : List Char) : (cutLines ends text).flatten = text := by
  induction text with
  | nil => rfl
  | cons c rest ih =>
    unfold cutLines
    split
    · rw [flatten_cons, ih, singleton_append]
    · split
      · next none =>
        rw [none] at ih
        rw [← ih]
        rfl
      · next first others found =>
        rw [found, flatten_cons] at ih
        rw [flatten_cons, cons_append, ih]

variable {ends}

theorem cutLines_plain {line rest : List Char} {last : Char} (plain : ∀ c ∈ line, ends c = false) (closing : ends last = true)
    (single : ¬ (last = '\r' ∧ rest.head? = some '\n')) :
    cutLines ends (line ++ last :: rest) = (line ++ [last]) :: cutLines ends rest := by
  induction line with
  | nil =>
    have cut : (ends last && !(last == '\r' && rest.head? == some '\n')) = true := by
      rw [closing, Bool.true_and, Bool.not_eq_true', Bool.and_eq_false_iff]
      by_cases carriage : last = '\r'
      · exact Or.inr (beq_eq_false_iff_ne.mpr fun feed => single ⟨carriage, feed⟩)
      · exact Or.inl (beq_eq_false_iff_ne.mpr carriage)
    rw [nil_append, nil_append, cutLines, if_pos cut]
  | cons c line ih =>
    have inside := ih fun other member => plain other (mem_cons_of_mem c member)
    rw [cons_append, cons_append, cutLines, plain c mem_cons_self, Bool.false_and, if_neg (by decide), inside]

theorem cutLines_carriage {line : List Char} (plain : ∀ c ∈ line, ends c = false) (closing : ends '\n' = true) (rest : List Char) :
    cutLines ends (line ++ '\r' :: '\n' :: rest) = (line ++ ['\r', '\n']) :: cutLines ends rest := by
  induction line with
  | nil =>
    have feed := @cutLines_plain ends [] rest '\n' (by simp) closing (by simp)
    rw [nil_append] at feed
    rw [nil_append, cutLines, feed, if_neg (by simp)]
    rfl
  | cons c line ih =>
    have inside := ih fun other member => plain other (mem_cons_of_mem c member)
    rw [cons_append, cons_append, cutLines, plain c mem_cons_self, Bool.false_and, if_neg (by decide), inside]

end

/-! The lines of a text put together again. -/

/-- A text that ends with the end of a line, also where the other text stands behind it. -/
def Closed (ends : Char → Bool) (front back : List Char) : Prop :=
  ∃ last, front.getLast? = some last ∧ ends last = true ∧ ¬ (last = '\r' ∧ back.head? = some '\n')

variable {ends : Char → Bool} {front back : List Char}

theorem Closed.ne_nil (closed : Closed ends front back) : front ≠ [] := by
  intro empty
  obtain ⟨last, found, _⟩ := closed
  rw [empty] at found
  cases found

theorem Closed.append (closed : Closed ends front back) (before : List Char) :
    Closed ends (before ++ front) back := by
  obtain ⟨last, found, facts⟩ := closed
  exact ⟨last, by rw [getLast?_append, found, Option.some_or], facts⟩

theorem Closed.congr {back' : List Char} (closed : Closed ends front back)
    (other : back'.head? ≠ some '\n') : Closed ends front back' := by
  obtain ⟨last, found, closing, _⟩ := closed
  exact ⟨last, found, closing, fun both => other both.2⟩

section
variable {ends : Char → Bool}

theorem cutLines_ne_nil {text : List Char} (nonempty : text ≠ []) : cutLines ends text ≠ [] := by
  intro none
  have whole := cutLines_flatten ends text
  rw [none] at whole
  exact nonempty whole.symm

/-- The lines of two texts are the lines of the first and those of the second, where the first ends with an end of a line. -/
theorem cutLines_append {front back : List Char} (closed : Closed ends front back) :
    cutLines ends (front ++ back) = cutLines ends front ++ cutLines ends back := by
  induction front with
  | nil => exact absurd rfl closed.ne_nil
  | cons c rest ih =>
    cases rest with
    | nil =>
      obtain ⟨last, found, closing, single⟩ := closed
      rw [getLast?_singleton, Option.some.injEq] at found
      subst found
      have alone := @cutLines_plain ends [] [] _ (by simp) closing (by simp)
      have first := @cutLines_plain ends [] back _ (by simp) closing single
      rw [nil_append] at alone first
      rw [singleton_append, first, alone]
      rfl
    | cons next more =>
      have closed' : Closed ends (next :: more) back := by
        obtain ⟨last, found, facts⟩ := closed
        rw [getLast?_cons_cons] at found
        exact ⟨last, found, facts⟩
      have later := ih closed'
      rw [cons_append, cutLines.eq_2, cutLines.eq_2, later]
      have same : ((next :: more) ++ back).head? = (next :: more).head? := rfl
      rw [same]
      split
      · rfl
      · cases held : cutLines ends (next :: more) with
        | nil => exact absurd held (cutLines_ne_nil (cons_ne_nil next more))
        | cons first others => rfl

theorem cutLines_cons {text first : List Char} {rest : List (List Char)} (cut : cutLines ends text = first :: rest) :
    cutLines ends first = [first] ∧ cutLines ends rest.flatten = rest ∧ (rest ≠ [] → Closed ends first rest.flatten) := by
  induction text generalizing first rest with
  | nil => cases cut
  | cons c text ih =>
    rw [cutLines] at cut
    split at cut
    · next stops =>
      cases cut
      rw [Bool.and_eq_true, Bool.not_eq_true', Bool.and_eq_false_iff] at stops
      have single : ¬ (c = '\r' ∧ text.head? = some '\n') := by
        intro both
        cases stops.2 with
        | inl other => exact absurd both.1 (beq_eq_false_iff_ne.mp other)
        | inr other => exact absurd both.2 (beq_eq_false_iff_ne.mp other)
      have alone := @cutLines_plain ends [] [] _ (by simp) stops.1 (by simp)
      rw [nil_append] at alone
      rw [cutLines_flatten]
      exact ⟨alone, rfl, fun _ => ⟨c, rfl, stops.1, single⟩⟩
    · next goes =>
      cases held : cutLines ends text with
      | nil =>
        rw [held] at cut
        cases cut
        refine ⟨?_, rfl, fun some => absurd rfl some⟩
        unfold cutLines
        split
        · rfl
        · rfl
      | cons first' others =>
        rw [held] at cut
        cases cut
        obtain ⟨alone, later, closed⟩ := ih held
        have whole := cutLines_flatten ends text
        rw [held, flatten_cons] at whole
        have filled : first' ≠ [] := by
          intro empty
          rw [empty] at alone
          cases alone
        have same : text.head? = first'.head? := by
          obtain ⟨next, more, spelled⟩ := exists_cons_of_ne_nil filled
          rw [← whole, spelled]
          rfl
        refine ⟨?_, later, fun some => (closed some).append [c]⟩
        rw [same] at goes
        rw [cutLines, if_neg goes, alone]

def Lines (ends : Char → Bool) (lines : List (List Char)) : Prop := cutLines ends lines.flatten = lines

theorem lines_cutLines (text : List Char) : Lines ends (cutLines ends text) := by
  rw [Lines, cutLines_flatten]

theorem Lines.append {front back : List (List Char)} (one : Lines ends front) (two : Lines ends back)
    (closed : front ≠ [] → Closed ends front.flatten back.flatten) : Lines ends (front ++ back) := by
  by_cases empty : front = []
  · rw [empty, nil_append]
    exact two
  · rw [Lines, flatten_append, cutLines_append (closed empty), one, two]

theorem lines_of_fed {lines : List (List Char)} (single : ∀ line ∈ lines, cutLines ends line = [line])
    (fed : ∀ line ∈ lines, line.getLast? = some '\n') (closing : ends '\n' = true) :
    Lines ends lines ∧ ∀ back, lines ≠ [] → Closed ends lines.flatten back := by
  induction lines with
  | nil => exact ⟨rfl, fun _ some => absurd rfl some⟩
  | cons line rest ih =>
    have later := ih (fun other member => single other (mem_cons_of_mem line member)) fun other member => fed other (mem_cons_of_mem line member)
    have closed : ∀ back, Closed ends line back := fun back => ⟨'\n', fed line mem_cons_self, closing, fun both => absurd both.1 (by decide)⟩
    constructor
    · rw [Lines, flatten_cons, cutLines_append (closed rest.flatten), single line mem_cons_self, later.1, singleton_append]
    · intro back _
      by_cases last : rest = []
      · rw [last, flatten_singleton]
        exact closed back
      · rw [flatten_cons]
        exact (later.2 back last).append line

theorem Lines.split {front back : List (List Char)} (whole : Lines ends (front ++ back)) :
    Lines ends front ∧ Lines ends back ∧ (front ≠ [] → back ≠ [] → Closed ends front.flatten back.flatten) := by
  induction front with
  | nil => exact ⟨rfl, whole, fun some => absurd rfl some⟩
  | cons line rest ih =>
    obtain ⟨alone, later, closed⟩ := @cutLines_cons ends (line :: (rest ++ back)).flatten line (rest ++ back) whole
    obtain ⟨one, two, between⟩ := ih later
    refine ⟨?_, two, ?_⟩
    · by_cases only : rest = []
      · rw [only, Lines, flatten_singleton, alone]
      · have closed' : Closed ends line rest.flatten := by
          have far := closed (by simp [only])
          rw [flatten_append] at far
          obtain ⟨last, found, closing, single⟩ := far
          refine ⟨last, found, closing, fun both => single ⟨both.1, ?_⟩⟩
          cases held : rest.flatten with
          | nil =>
            rw [held] at both
            cases both.2
          | cons c more =>
            rw [held] at both
            exact both.2
        rw [Lines, flatten_cons, cutLines_append closed', alone, one]
        rfl
    · intro _ filled
      by_cases last : rest = []
      · rw [last, flatten_singleton]
        have near := closed (by simp [filled])
        rwa [last, nil_append] at near
      · rw [flatten_cons]
        exact (between last filled).append line

end

/-- `str.splitlines`: nothing but the end of a line ends it, so what ends it can be taken off sign by sign. -/
def splitlines (text : List Char) : List (List Char) :=
  (cutLines endsLine text).map fun line => (line.reverse.dropWhile endsLine).reverse

theorem dropEnds_concat {line : List Char} {last : Char} (plain : ∀ c ∈ line, endsLine c = false) (closing : endsLine last = true) :
    ((line ++ [last]).reverse.dropWhile endsLine).reverse = line := by
  rw [reverse_append, reverse_singleton, singleton_append, dropWhile_cons_of_pos closing]
  cases backwards : line.reverse with
  | nil => rw [dropWhile_nil, reverse_nil, reverse_eq_nil_iff.mp backwards]
  | cons c rest =>
    have member : c ∈ line := by
      rw [← mem_reverse, backwards]
      exact mem_cons_self
    rw [dropWhile_cons_of_neg (by rw [plain c member]; decide), ← backwards, reverse_reverse]

theorem splitlines_plain {line rest : List Char} {last : Char} (plain : ∀ c ∈ line, endsLine c = false) (closing : endsLine last = true)
    (other : last ≠ '\r') : splitlines (line ++ last :: rest) = line :: splitlines rest := by
  rw [splitlines, cutLines_plain plain closing fun carriage => other carriage.1, map_cons, dropEnds_concat plain closing, splitlines]

theorem universalNewlines_plain {text : List Char} (plain : '\r' ∉ text) : universalNewlines text = text := by
  induction text with
  | nil => rfl
  | cons c rest ih =>
    have other : c ≠ '\r' := fun same => plain (same ▸ mem_cons_self)
    have later := ih fun member => plain (mem_cons_of_mem c member)
    rw [universalNewlines.eq_4 c rest (fun _ same => absurd same other) (fun same => absurd same other), later]

end Workctx.Text
