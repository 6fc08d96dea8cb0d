import Mathlib.Data.List.TakeWhile
import Workctx.Secrets.Patterns

/-! What an assignment is made of: the finder matches it where no sign of a key stands in front of it,
and its value ends with the last sign that can belong to it. -/

namespace Workctx.Secrets
open Workctx.Text Workctx.Domain Workctx.Services List

/-! The kinds of signs -/

theorem toNat_letter {c : Char} (letter : foldedLetter c = true) :
    (65 ≤ c.toNat ∧ c.toNat ≤ 90) ∨ (97 ≤ c.toNat ∧ c.toNat ≤ 122) ∨ c.toNat = 304 ∨ c.toNat = 305 ∨ c.toNat = 383 ∨ c.toNat = 8490 := by
  unfold foldedLetter at letter
  simp only [Bool.or_eq_true, Bool.and_eq_true, decide_eq_true_eq, beq_iff_eq] at letter
  rcases letter with ((((⟨low, high⟩ | ⟨low, high⟩) | rfl) | rfl) | rfl) | rfl
  · exact .inr (.inl ⟨low, high⟩)
  · exact .inl ⟨low, high⟩
  all_goals simp

theorem toNat_keySign {c : Char} (sign : isKeySign c = true) :
    (48 ≤ c.toNat ∧ c.toNat ≤ 57) ∨ (65 ≤ c.toNat ∧ c.toNat ≤ 90) ∨ (97 ≤ c.toNat ∧ c.toNat ≤ 122) ∨ c.toNat = 45 ∨ c.toNat = 95 ∨
      c.toNat = 304 ∨ c.toNat = 305 ∨ c.toNat = 383 ∨ c.toNat = 8490 := by
  unfold isKeySign isAsciiDigit at sign
  simp only [Bool.or_eq_true, Bool.and_eq_true, decide_eq_true_eq, beq_iff_eq] at sign
  rcases sign with ((letter | ⟨low, high⟩) | rfl) | rfl
  · have range := toNat_letter letter
    omega
  · exact .inl ⟨low, high⟩
  · simp
  · simp

theorem not_keySign_of_space {c : Char} (space : isSpace c = true) : isKeySign c = false := by
  by_contra sign
  have range := toNat_keySign (Bool.not_eq_false _ ▸ sign)
  simp only [isSpace, Bool.or_eq_true, Bool.and_eq_true, decide_eq_true_eq, beq_iff_eq] at space
  omega

theorem isQuote_iff {c : Char} : isQuote c = true ↔ c = '\'' ∨ c = '"' := by
  unfold isQuote
  rw [Bool.or_eq_true, beq_iff_eq, beq_iff_eq]

theorem not_keySign_of_quote {c : Char} (quote : isQuote c = true) : isKeySign c = false := by
  rcases isQuote_iff.mp quote with rfl | rfl <;> rfl

theorem not_quote_of_space {c : Char} (space : isSpace c = true) : isQuote c = false := by
  by_contra quote
  rcases isQuote_iff.mp (Bool.not_eq_false _ ▸ quote) with rfl | rfl <;> cases space

/-! The parts of an assignment -/

structure Assignment where
  environment : List Char
  key : List Char
  quote : List Char
  blank : List Char
  separator : Char
  blank' : List Char
  quote' : List Char
  value : List Char
  environment_form : environment = [] ∨ environment.map lowerAscii = environmentPrefix
  key_head : key.head?.any foldedLetter = true
  key_signs : ∀ c ∈ key, isKeySign c = true
  quote_form : quote = [] ∨ ∃ c, quote = [c] ∧ isQuote c = true
  blank_form : ∀ c ∈ blank, isSpace c = true
  separator_form : separator = ':' ∨ separator = '='
  blank_form' : ∀ c ∈ blank', isSpace c = true
  quote_form' : quote' = [] ∨ ∃ c, quote' = [c] ∧ isQuote c = true
  value_signs : ∀ c ∈ value, isValueSign c = true
  value_length : 12 ≤ value.length

namespace Assignment
variable (assignment : Assignment)

def middle : List Char :=
  assignment.quote ++ assignment.blank ++ assignment.separator :: assignment.blank' ++ assignment.quote'

def text : List Char := assignment.environment ++ assignment.key ++ assignment.middle ++ assignment.value

end Assignment

/-- The signs at the front that pass a test are taken up to the first that does not. -/
theorem takeWhile_front {test : Char → Bool} {front back : List Char} (kept : ∀ c ∈ front, test c = true)
    (stop : ∀ c, back.head? = some c → test c = false) : (front ++ back).takeWhile test = front := by
  rw [takeWhile_append_of_pos kept]
  cases back with
  | nil => rw [takeWhile_nil, append_nil]
  | cons c rest => rw [takeWhile_cons_of_neg (by simp [stop c rfl]), append_nil]

theorem dropWhile_front {test : Char → Bool} {front back : List Char} (kept : ∀ c ∈ front, test c = true)
    (stop : ∀ c, back.head? = some c → test c = false) : (front ++ back).dropWhile test = back := by
  rw [dropWhile_append_of_pos kept]
  cases back with
  | nil => rfl
  | cons c rest => rw [dropWhile_cons_of_neg (by simp [stop c rfl])]

theorem dropQuote_front {quote back : List Char} (form : quote = [] ∨ ∃ c, quote = [c] ∧ isQuote c = true)
    (stop : ∀ c, back.head? = some c → isQuote c = false) : dropQuote (quote ++ back) = back := by
  rcases form with rfl | ⟨c, rfl, quote⟩
  · cases back with
    | nil => rfl
    | cons c rest => exact if_neg (by simp [stop c rfl])
  · exact if_pos quote

section
variable {assignment : Assignment} {rest : List Char}

namespace Assignment

theorem separator_plain : isSpace assignment.separator = false ∧ isQuote assignment.separator = false ∧
    isKeySign assignment.separator = false := by
  rcases assignment.separator_form with same | same <;> rw [same] <;> decide

theorem value_head {c : Char} (first : (assignment.value ++ rest).head? = some c) : isValueSign c = true := by
  cases value : assignment.value with
  | nil =>
    have long := assignment.value_length
    rw [value] at long
    simp at long
  | cons other more =>
    rw [value] at first
    obtain rfl : other = c := Option.some.inj first
    exact assignment.value_signs _ (by rw [value]; exact mem_cons_self)

theorem tail : assignmentTail (assignment.middle ++ assignment.value ++ rest) = some (assignment.value ++ rest) := by
  obtain ⟨noSpace, noQuote, _⟩ := assignment.separator_plain
  have spelled : ∀ c, isValueSign c = true → isSpace c = false ∧ isQuote c = false := by
    intro c sign
    simp only [isValueSign, Bool.not_eq_true', Bool.or_eq_false_iff] at sign
    exact sign.1.1
  unfold assignmentTail middle
  simp only [append_assoc, cons_append]
  rw [dropQuote_front assignment.quote_form, dropWhile_front assignment.blank_form]
  · dsimp only
    rw [dropWhile_front assignment.blank_form', dropQuote_front assignment.quote_form', if_pos]
    · rcases assignment.separator_form with same | same <;> rw [same] <;> rfl
    · exact fun c first => (spelled c (value_head first)).2
    · intro c first
      rcases assignment.quote_form' with none | ⟨quote, same, form⟩
      · rw [none, nil_append] at first
        exact (spelled c (value_head first)).1
      · rw [same] at first
        obtain rfl : quote = c := Option.some.inj first
        by_contra space
        have other := not_quote_of_space (Bool.not_eq_false _ ▸ space)
        rw [form] at other
        cases other
  · intro c first
    obtain rfl : assignment.separator = c := Option.some.inj first
    exact noSpace
  · intro c first
    cases blank : assignment.blank with
    | nil =>
      rw [blank] at first
      obtain rfl : assignment.separator = c := Option.some.inj first
      exact noQuote
    | cons other more =>
      rw [blank] at first
      obtain rfl : other = c := Option.some.inj first
      exact not_quote_of_space (assignment.blank_form _ (by rw [blank]; exact mem_cons_self))

end Assignment

theorem Assignment.not_keySign_of_middle {back : List Char} {c : Char}
    (first : (assignment.quote ++ (assignment.blank ++ assignment.separator :: back)).head? = some c) : isKeySign c = false := by
  rcases assignment.quote_form with none | ⟨quote, same, form⟩
  · rw [none, nil_append] at first
    cases blank : assignment.blank with
    | nil =>
      rw [blank] at first
      obtain rfl : assignment.separator = c := Option.some.inj first
      exact assignment.separator_plain.2.2
    | cons other more =>
      rw [blank] at first
      obtain rfl : other = c := Option.some.inj first
      exact not_keySign_of_space (assignment.blank_form _ (by rw [blank]; exact mem_cons_self))
  · rw [same] at first
    obtain rfl : quote = c := Option.some.inj first
    exact not_keySign_of_quote form

theorem eq_dollar {c : Char} (lower : lowerAscii c = '$') : c = '$' := by
  unfold lowerAscii at lower
  split at lower
  · next upper =>
    rw [Bool.and_eq_true, decide_eq_true_eq, decide_eq_true_eq] at upper
    have others : ∀ number < 91, 65 ≤ number → Char.ofNat (number + 32) ≠ '$' := by decide
    have high : c.toNat ≤ 90 := upper.2
    exact absurd lower (others c.toNat (by omega) upper.1)
  · exact lower

/-- The finder matches an assignment where no sign of a key stands in front of it, up to the last sign that can belong to its value. -/
theorem matchAssignment_text {before : Option Char} (apart : before.any isKeySign = false)
    (ends : ∀ c, rest.head? = some c → isValueSign c = false) :
    matchAssignment before (assignment.text ++ rest) = some (assignment.key, assignment.text.length) := by
  obtain ⟨c, more, split⟩ : ∃ c more, assignment.key = c :: more := by
    cases key : assignment.key with
    | nil => exact absurd assignment.key_head (by simp [key])
    | cons c more => exact ⟨c, more, rfl⟩
  have letter : foldedLetter c = true := by
    have head := assignment.key_head
    rwa [split, head?_cons, Option.any_some] at head
  have body : (if ((assignment.text ++ rest).take 5).map lowerAscii == environmentPrefix then (assignment.text ++ rest).drop 5
      else assignment.text ++ rest) = assignment.key ++ (assignment.middle ++ assignment.value ++ rest) := by
    unfold Assignment.text
    simp only [append_assoc]
    rcases assignment.environment_form with none | form
    · rw [none, nil_append, if_neg]
      rw [split]
      intro same
      have first : lowerAscii c = '$' := (List.cons.inj (beq_iff_eq.mp same)).1
      exact absurd letter (by rw [eq_dollar first]; decide)
    · have five : assignment.environment.length = 5 := by
        rw [← length_map, form]
        rfl
      rw [← five, take_left, drop_left, form, if_pos (beq_self_eq_true _)]
  have key : (assignment.key ++ (assignment.middle ++ assignment.value ++ rest)).takeWhile isKeySign = assignment.key := by
    refine takeWhile_front assignment.key_signs fun c first => ?_
    simp only [Assignment.middle, append_assoc] at first
    exact Assignment.not_keySign_of_middle first
  unfold matchAssignment
  dsimp only
  rw [body, key, drop_left, Assignment.tail, apart, assignment.key_head]
  dsimp only
  rw [takeWhile_front assignment.value_signs ends, if_pos assignment.value_length]
  have lengths : (assignment.text ++ rest).length - (assignment.value ++ rest).length + assignment.value.length =
      assignment.text.length := by
    simp only [Assignment.text, length_append]
    omega
  rw [lengths]
  rfl

theorem dropQuote_split (text : List Char) :
    ∃ quote, text = quote ++ dropQuote text ∧ (quote = [] ∨ ∃ c, quote = [c] ∧ isQuote c = true) := by
  cases text with
  | nil => exact ⟨[], rfl, .inl rfl⟩
  | cons c rest =>
    rw [dropQuote]
    split
    · next quote => exact ⟨[c], rfl, .inr ⟨c, rfl, quote⟩⟩
    · exact ⟨[], rfl, .inl rfl⟩

theorem takeWhile_all {test : Char → Bool} {text : List Char} : ∀ c ∈ text.takeWhile test, test c = true :=
  fun _ member => mem_takeWhile_imp member

theorem assignmentTail_some {text tail : List Char} (found : assignmentTail text = some tail) :
    ∃ quote blank separator blank' quote', text = quote ++ blank ++ separator :: blank' ++ quote' ++ tail ∧
      (quote = [] ∨ ∃ c, quote = [c] ∧ isQuote c = true) ∧ (∀ c ∈ blank, isSpace c = true) ∧ (separator = ':' ∨ separator = '=') ∧
      (∀ c ∈ blank', isSpace c = true) ∧ (quote' = [] ∨ ∃ c, quote' = [c] ∧ isQuote c = true) := by
  obtain ⟨quote, unquoted, form⟩ := dropQuote_split text
  have spaced := takeWhile_append_dropWhile (p := isSpace) (l := dropQuote text)
  unfold assignmentTail at found
  split at found
  · next separator rest rested =>
    split at found
    · next separates =>
      cases found
      obtain ⟨quote', unquoted', form'⟩ := dropQuote_split (rest.dropWhile isSpace)
      have spaced' := takeWhile_append_dropWhile (p := isSpace) (l := rest)
      refine ⟨quote, (dropQuote text).takeWhile isSpace, separator, rest.takeWhile isSpace, quote', ?_, form, takeWhile_all, ?_,
        takeWhile_all, form'⟩
      · simp only [append_assoc, cons_append]
        rw [← unquoted', spaced', ← rested, spaced, ← unquoted]
      · simpa only [Bool.or_eq_true, beq_iff_eq] using separates
    · cases found
  · cases found

theorem matchAssignment_some {before : Option Char} {text key : List Char} {length : Nat}
    (found : matchAssignment before text = some (key, length)) :
    before.any isKeySign = false ∧ ∃ (assignment : Assignment) (rest : List Char), text = assignment.text ++ rest ∧
      assignment.key = key ∧ assignment.text.length = length ∧ ∀ c, rest.head? = some c → isValueSign c = false := by
  obtain ⟨environment, body, whole, form, same⟩ : ∃ environment body, text = environment ++ body ∧
      (environment = [] ∨ environment.map lowerAscii = environmentPrefix) ∧
      (if (text.take 5).map lowerAscii == environmentPrefix then text.drop 5 else text) = body := by
    by_cases starts : ((text.take 5).map lowerAscii == environmentPrefix) = true
    · exact ⟨text.take 5, text.drop 5, (take_append_drop _ _).symm, .inr (beq_iff_eq.mp starts), if_pos starts⟩
    · exact ⟨[], text, rfl, .inl rfl, if_neg starts⟩
  unfold matchAssignment at found
  dsimp only at found
  rw [same] at found
  split at found
  · cases found
  · next plain =>
    rw [Bool.or_eq_true, not_or, Bool.not_eq_true, Bool.not_eq_true, Bool.not_eq_false'] at plain
    refine ⟨plain.1, ?_⟩
    split at found
    · next tail tailed =>
      split at found
      · next long =>
        cases found
        obtain ⟨quote, blank, separator, blank', quote', split, quoted, blanks, separates, blanks', quoted'⟩ := assignmentTail_some tailed
        let assignment : Assignment := ⟨environment, body.takeWhile isKeySign, quote, blank, separator, blank', quote',
          tail.takeWhile isValueSign, form, plain.2, takeWhile_all, quoted, blanks, separates, blanks', quoted', takeWhile_all, long⟩
        have parts : text = assignment.text ++ tail.dropWhile isValueSign := by
          have keyed := prefix_iff_eq_append.mp (List.takeWhile_prefix isKeySign (l := body))
          have valued := takeWhile_append_dropWhile (p := isValueSign) (l := tail)
          calc text = environment ++ (body.takeWhile isKeySign ++ body.drop (body.takeWhile isKeySign).length) := by rw [keyed, whole]
            _ = environment ++ (body.takeWhile isKeySign ++ (quote ++ blank ++ separator :: blank' ++ quote' ++
                (tail.takeWhile isValueSign ++ tail.dropWhile isValueSign))) := by rw [split, valued]
            _ = assignment.text ++ tail.dropWhile isValueSign := by
              simp only [assignment, Assignment.text, Assignment.middle, append_assoc, cons_append]
        refine ⟨assignment, tail.dropWhile isValueSign, parts, rfl, ?_, ?_⟩
        · have lengths := congrArg List.length parts
          have tails := congrArg List.length (takeWhile_append_dropWhile (p := isValueSign) (l := tail))
          have short : (tail.takeWhile isValueSign).length ≤ assignment.text.length := by
            rw [Assignment.text, length_append]
            exact Nat.le_add_left _ _
          rw [length_append] at lengths tails
          omega
        · intro c first
          have stops := head?_dropWhile_not isValueSign tail
          rw [first] at stops
          exact stops
      · cases found
    · cases found

end

end Workctx.Secrets
