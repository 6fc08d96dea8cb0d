import Mathlib.Data.List.TakeDrop
import Workctx.Json.Value

/-! Reading back what was written: for every layout of whitespace the reader returns the
printed value, so the printed text determines the value. -/

namespace Workctx.Json
open List

/-- A layout puts only whitespace around the tokens. -/
structure Layout.Blank (layout : Layout) : Prop where
  newline : ∀ depth, ∀ c ∈ layout.newline depth, isWhitespace c = true
  colon : ∃ blanks, layout.colon = ':' :: blanks ∧ ∀ c ∈ blanks, isWhitespace c = true

theorem compact_blank : compact.Blank := ⟨fun _ _ member => by simp [compact] at member, [], rfl, by simp⟩

theorem indented_blank (width : Nat) : (indented width).Blank := by
  refine ⟨fun depth c member => ?_, [' '], rfl, by simp [isWhitespace]⟩
  rcases mem_cons.mp member with rfl | member
  · rfl
  · rw [eq_of_mem_replicate member]
    rfl

mutual
/-- Values without the number forms that keep their text. -/
def Value.Exact : Value → Prop
  | .float _ => False
  | .array items => ElementsExact items
  | .object members => MembersExact members
  | _ => True

def ElementsExact : List Value → Prop
  | [] => True
  | item :: rest => item.Exact ∧ ElementsExact rest

def MembersExact : List (String × Value) → Prop
  | [] => True
  | (_, item) :: rest => item.Exact ∧ MembersExact rest
end

theorem elementsExact_iff (items : List Value) : ElementsExact items ↔ ∀ item ∈ items, item.Exact := by
  induction items with
  | nil => simp [ElementsExact]
  | cons item rest ih => simp [ElementsExact, ih]

theorem membersExact_iff (members : List (String × Value)) :
    MembersExact members ↔ ∀ item ∈ members, item.2.Exact := by
  induction members with
  | nil => simp [MembersExact]
  | cons item rest ih => simp [MembersExact, ih]

theorem elementsNoDuplicateObjectKeys_map {α : Type} (items : List α) {write : α → Value}
    (each : ∀ item, (write item).noDuplicateObjectKeys = true) :
    elementsNoDuplicateObjectKeys (items.map write) = true := by
  induction items with
  | nil => rfl
  | cons item rest ih => rw [map_cons, elementsNoDuplicateObjectKeys, each, ih]; rfl

/-! Whitespace. -/

theorem skipWhitespace_append (blanks rest : List Char) (blank : ∀ c ∈ blanks, isWhitespace c = true) :
    skipWhitespace (blanks ++ rest) = skipWhitespace rest := by
  induction blanks with
  | nil => rfl
  | cons c more ih =>
    rw [cons_append, skipWhitespace, dropWhile_cons_of_pos (blank c mem_cons_self)]
    exact ih fun other member => blank other (mem_cons_of_mem _ member)

variable {c : Char} {rest : List Char} {layout : Layout}

theorem skipWhitespace_cons (solid : isWhitespace c = false) (rest : List Char) :
    skipWhitespace (c :: rest) = c :: rest := by
  rw [skipWhitespace, dropWhile_cons_of_neg (by simp [solid])]

/-! Strings. -/

theorem hexValue4_hexDigit {n : Nat} (small : n < 32) :
    hexValue4 '0' '0' (hexDigit (n / 16)) (hexDigit (n % 16)) = some n := by
  have every : ∀ n : Fin 32, hexValue4 '0' '0' (hexDigit (n / 16)) (hexDigit (n % 16)) = some n.val := by decide
  exact every ⟨n, small⟩

theorem scanString_escapeChar (c : Char) (rest : List Char) :
    scanString (escapeChar c ++ rest) = prepend c (scanString rest) := by
  unfold escapeChar
  iterate 7
    split
    · subst c; rw [cons_append, cons_append, nil_append, scanString]
  split
  · next control =>
    simp only [cons_append, nil_append]
    rw [scanString, hexValue4_hexDigit control]
    simp only [show ¬(0xD800 ≤ c.toNat ∧ c.toNat < 0xDC00) by omega,
      show ¬(0xDC00 ≤ c.toNat ∧ c.toNat < 0xE000) by omega, if_false, Char.ofNat_toNat]
  · next quote backslash _ _ _ _ _ printable =>
    rw [cons_append, nil_append, scanString, if_neg printable]
    all_goals simp_all

theorem scanString_escape (text rest : List Char) :
    scanString (escape text ++ '"' :: rest) = some (text, rest) := by
  induction text with
  | nil => rw [escape, flatMap_nil, nil_append, scanString]
  | cons c more ih =>
    rw [escape, flatMap_cons, append_assoc, scanString_escapeChar]
    rw [escape] at ih
    rw [ih]
    rfl

/-! Numbers. -/

/-- What may stand behind a printed value: nothing that would prolong a number. -/
def Ends (rest : List Char) : Prop :=
  ∀ c, rest.head? = some c → isDigit c = false ∧ c ≠ '.' ∧ c ≠ 'e' ∧ c ≠ 'E'

theorem ends_nil : Ends [] := fun _ head => by simp at head

theorem ends_cons (digit : isDigit c = false) (point : c ≠ '.') (lower : c ≠ 'e') (upper : c ≠ 'E')
    (rest : List Char) : Ends (c :: rest) := by
  intro other head
  rw [head?_cons, Option.some.injEq] at head
  subst other
  exact ⟨digit, point, lower, upper⟩

theorem isDigit_of_mem_toDigits {n : Nat} (member : c ∈ Nat.toDigits 10 n) : isDigit c = true :=
  Nat.isDigit_of_mem_toDigits (by decide) (by decide) member

theorem toDigits_head_ne_zero {n : Nat} (positive : 0 < n) : (Nat.toDigits 10 n).head? ≠ some '0' := by
  induction n using Nat.strongRecOn with
  | ind n ih =>
    by_cases small : n < 10
    · rw [Nat.toDigits_of_lt_base small, head?_cons]
      have every : ∀ n : Fin 10, 0 < n.val → some (Nat.digitChar n) ≠ some '0' := by decide
      exact every ⟨n, small⟩ positive
    · rw [Nat.toDigits_of_base_le (by decide) (by omega), head?_append_of_ne_nil _ Nat.toDigits_ne_nil]
      exact ih (n / 10) (by omega) (by omega)

theorem spanDigits_append (digits rest : List Char) (all : ∀ c ∈ digits, isDigit c = true) (ends : Ends rest) :
    spanDigits (digits ++ rest) = (digits, rest) := by
  rw [spanDigits, span_eq_takeWhile_dropWhile]
  have stop : rest.takeWhile isDigit = [] ∧ rest.dropWhile isDigit = rest := by
    cases rest with
    | nil => exact ⟨rfl, rfl⟩
    | cons c more =>
      have solid := (ends c rfl).1
      exact ⟨takeWhile_cons_of_neg (by simp [solid]), dropWhile_cons_of_neg (by simp [solid])⟩
  rw [takeWhile_append_of_pos all, dropWhile_append_of_pos all, stop.1, stop.2, append_nil]

theorem scanInteger_toDigits (n : Nat) (ends : Ends rest) :
    scanInteger (Nat.toDigits 10 n ++ rest) = some (Nat.toDigits 10 n, rest) := by
  rcases Nat.eq_zero_or_pos n with rfl | positive
  · rfl
  · have head := toDigits_head_ne_zero positive
    have spanned := spanDigits_append (Nat.toDigits 10 n) rest (fun c => isDigit_of_mem_toDigits) ends
    cases digits : Nat.toDigits 10 n with
    | nil => exact absurd digits Nat.toDigits_ne_nil
    | cons c more =>
      rw [digits] at head spanned
      have other : c ≠ '0' := fun same => head (by rw [same]; rfl)
      rw [cons_append] at spanned ⊢
      rw [scanInteger]
      · rw [spanned]
      · intro tail same
        exact other (List.cons.inj same).1

theorem scanFraction_ends (ends : Ends rest) : scanFraction rest = ([], rest) := by
  cases rest with
  | nil => rfl
  | cons c more =>
    rw [scanFraction]
    intro tail same
    exact (ends c rfl).2.1 (List.cons.inj same).1

theorem scanExponent_ends (ends : Ends rest) : scanExponent rest = ([], rest) := by
  cases rest with
  | nil => rfl
  | cons c more =>
    obtain ⟨_, _, lower, upper⟩ := ends c rfl
    unfold scanExponent
    simp only [lower, upper, or_self, if_false]

theorem scanUnsigned_toDigits (negative : Bool) (n : Nat) (ends : Ends rest) :
    scanUnsigned negative (Nat.toDigits 10 n ++ rest) = some (.int (signed negative n), rest) := by
  rw [scanUnsigned, scanInteger_toDigits n ends, Option.map_some]
  simp only [scanFraction_ends ends, scanExponent_ends ends, and_self, if_true, Nat.ofDigitChars_ten_toDigits]

theorem toDigits_cons (n : Nat) : ∃ c more, Nat.toDigits 10 n = c :: more ∧ isDigit c = true := by
  cases digits : Nat.toDigits 10 n with
  | nil => exact absurd digits Nat.toDigits_ne_nil
  | cons c more =>
    have member : c ∈ Nat.toDigits 10 n := by
      rw [digits]
      exact mem_cons_self
    exact ⟨c, more, rfl, isDigit_of_mem_toDigits member⟩

theorem scanNumber_printInt (value : Int) (ends : Ends rest) :
    scanNumber (printInt value ++ rest) = some (.int value, rest) := by
  cases value with
  | ofNat n =>
    obtain ⟨c, more, digits, digit⟩ := toDigits_cons n
    have scanned := scanUnsigned_toDigits false n ends
    rw [printInt]
    rw [digits, cons_append] at scanned ⊢
    rw [scanNumber]
    · exact scanned
    · intro tail same
      rw [(List.cons.inj same).1] at digit
      exact absurd digit (by decide)
    · intro tail same
      rw [(List.cons.inj same).1] at digit
      exact absurd digit (by decide)
  | negSucc n =>
    obtain ⟨c, more, digits, digit⟩ := toDigits_cons (n + 1)
    have scanned := scanUnsigned_toDigits true (n + 1) ends
    rw [printInt]
    rw [digits, cons_append] at scanned
    rw [digits, cons_append, cons_append, scanNumber]
    · exact scanned
    · intro tail same
      rw [(List.cons.inj same).1] at digit
      exact absurd digit (by decide)

theorem scanValue_number (number : isDigit c = true ∨ c = '-') (fuel : Nat) (rest : List Char) :
    scanValue (fuel + 1) (c :: rest) = scanNumber (c :: rest) := by
  have other : ∀ d, d ∈ ['n', 't', 'f', 'N', 'I', '"', '[', '{'] → c ≠ d := by
    intro d member same
    subst same
    rcases number with digit | minus
    · revert digit
      simp only [mem_cons, not_mem_nil, or_false] at member
      rcases member with rfl | rfl | rfl | rfl | rfl | rfl | rfl | rfl <;> decide
    · subst minus
      exact absurd member (by decide)
  rw [scanValue]
  all_goals
    intros
    rename_i same
    exact other _ (by decide) (List.cons.inj same).1

/-! Values. -/

variable {value : Value}

/-- A printed value starts with a character that is neither whitespace nor a closing bracket. -/
theorem print_cons (layout : Layout) (depth : Nat) (exact : value.Exact) :
    ∃ c more, print layout depth value = c :: more ∧ isWhitespace c = false ∧ c ≠ ']' ∧ c ≠ '}' := by
  cases value with
  | null => exact ⟨'n', _, by rw [print], by decide⟩
  | bool value => cases value <;> exact ⟨_, _, by rw [print], by decide⟩
  | float lexeme => exact exact.elim
  | string value => exact ⟨'"', _, by rw [print, printString], by decide⟩
  | array items => cases items <;> exact ⟨_, _, by rw [print], by decide⟩
  | object members => rcases members with _ | ⟨⟨key, item⟩, rest⟩ <;> exact ⟨_, _, by rw [print], by decide⟩
  | int value =>
    cases value with
    | negSucc n => exact ⟨'-', _, by rw [print, printInt], by decide⟩
    | ofNat n =>
      obtain ⟨c, more, digits, digit⟩ := toDigits_cons n
      refine ⟨c, more, by rw [print, printInt, digits], ?_, ?_, ?_⟩
      · by_contra blank
        rw [Bool.not_eq_false, isWhitespace] at blank
        simp only [Bool.or_eq_true, decide_eq_true_eq] at blank
        rcases blank with ((rfl | rfl) | rfl) | rfl <;> exact absurd digit (by decide)
      · rintro rfl; exact absurd digit (by decide)
      · rintro rfl; exact absurd digit (by decide)

theorem ends_blanks {blanks : List Char} (blank : ∀ c ∈ blanks, isWhitespace c = true) (ends : Ends rest) :
    Ends (blanks ++ rest) := by
  cases blanks with
  | nil => exact ends
  | cons c more =>
    have white := blank c mem_cons_self
    rw [isWhitespace] at white
    simp only [Bool.or_eq_true, decide_eq_true_eq] at white
    rcases white with ((rfl | rfl) | rfl) | rfl <;> exact ends_cons (by decide) (by decide) (by decide) (by decide) _

theorem ends_elements (items : List Value) (depth : Nat) (ends : Ends rest) :
    Ends (printElements layout depth items ++ rest) := by
  cases items with
  | nil => rw [printElements]; exact ends
  | cons item more => rw [printElements]; exact ends_cons (by decide) (by decide) (by decide) (by decide) _

theorem ends_members (members : List (String × Value)) (depth : Nat)
    (ends : Ends rest) : Ends (printMembers layout depth members ++ rest) := by
  rcases members with _ | ⟨⟨key, item⟩, more⟩
  · rw [printMembers]; exact ends
  · rw [printMembers]; exact ends_cons (by decide) (by decide) (by decide) (by decide) _

theorem skipWhitespace_print (depth : Nat) (exact : value.Exact)
    (rest : List Char) : skipWhitespace (print layout depth value ++ rest) = print layout depth value ++ rest := by
  obtain ⟨c, more, printed, solid, _⟩ := print_cons layout depth exact
  rw [printed, cons_append, skipWhitespace_cons solid]

theorem skipWhitespace_elements (blank : layout.Blank) (items : List Value) (depth outer : Nat) (solid : isWhitespace c = false) (rest : List Char) :
    skipWhitespace (printElements layout depth items ++ (layout.newline outer ++ c :: rest)) =
      match items with
      | [] => c :: rest
      | _ :: _ => printElements layout depth items ++ (layout.newline outer ++ c :: rest) := by
  cases items with
  | nil =>
    rw [printElements, nil_append, skipWhitespace_append _ _ (blank.newline outer)]
    exact skipWhitespace_cons solid rest
  | cons item more => rw [printElements]; exact skipWhitespace_cons (by decide) _

theorem skipWhitespace_members (blank : layout.Blank) (members : List (String × Value))
    (depth outer : Nat) (solid : isWhitespace c = false) (rest : List Char) :
    skipWhitespace (printMembers layout depth members ++ (layout.newline outer ++ c :: rest)) =
      match members with
      | [] => c :: rest
      | _ :: _ => printMembers layout depth members ++ (layout.newline outer ++ c :: rest) := by
  rcases members with _ | ⟨⟨key, item⟩, more⟩
  · rw [printMembers, nil_append, skipWhitespace_append _ _ (blank.newline outer)]
    exact skipWhitespace_cons solid rest
  · rw [printMembers]; exact skipWhitespace_cons (by decide) _

theorem skipWhitespace_printString (text : String) (rest : List Char) :
    skipWhitespace (printString text ++ rest) = printString text ++ rest := by
  rw [printString, cons_append]
  exact skipWhitespace_cons (by decide) _

theorem scanMember_print (blank : layout.Blank) (depth fuel : Nat) (key : String)
    (exact : value.Exact)
    (scanned : scanValue fuel (print layout depth value ++ rest) = some (value, rest)) :
    scanMember (fuel + 1) (printString key ++ (layout.colon ++ (print layout depth value ++ rest))) =
      some ((key, value), rest) := by
  obtain ⟨blanks, colon, white⟩ := blank.colon
  rw [printString, cons_append, append_assoc, singleton_append, scanMember, scanString_escape]
  simp only [Option.bind_eq_bind, Option.bind_some]
  rw [colon, cons_append, skipWhitespace_cons (by decide)]
  simp only
  rw [skipWhitespace_append _ _ white, skipWhitespace_print depth exact, scanned]
  simp only [Option.bind_some, Option.pure_def, String.ofList_toList]

mutual
theorem scanValue_print {layout : Layout} (blank : layout.Blank) :
    ∀ (value : Value) (depth fuel : Nat) (rest : List Char), value.Exact → Ends rest →
      (print layout depth value).length ≤ fuel →
      scanValue fuel (print layout depth value ++ rest) = some (value, rest)
  | .null, depth, fuel, rest, exact, ends, enough => by
    obtain ⟨fuel, rfl⟩ : ∃ more, fuel = more + 1 := ⟨fuel - 1, by simp [print] at enough; omega⟩
    rw [print, cons_append, cons_append, cons_append, cons_append, nil_append, scanValue]
  | .bool true, depth, fuel, rest, exact, ends, enough => by
    obtain ⟨fuel, rfl⟩ : ∃ more, fuel = more + 1 := ⟨fuel - 1, by simp [print] at enough; omega⟩
    rw [print, cons_append, cons_append, cons_append, cons_append, nil_append, scanValue]
  | .bool false, depth, fuel, rest, exact, ends, enough => by
    obtain ⟨fuel, rfl⟩ : ∃ more, fuel = more + 1 := ⟨fuel - 1, by simp [print] at enough; omega⟩
    rw [print]
    simp only [cons_append, nil_append]
    rw [scanValue]
  | .int value, depth, fuel, rest, exact, ends, enough => by
    have scanned := scanNumber_printInt value ends
    obtain ⟨c, more, printed, number⟩ : ∃ c more, printInt value = c :: more ∧ (isDigit c = true ∨ c = '-') := by
      cases value with
      | negSucc n => exact ⟨'-', _, rfl, .inr rfl⟩
      | ofNat n =>
        obtain ⟨c, more, digits, digit⟩ := toDigits_cons n
        exact ⟨c, more, digits, .inl digit⟩
    rw [print] at enough ⊢
    rw [printed] at scanned enough ⊢
    obtain ⟨fuel, rfl⟩ : ∃ more, fuel = more + 1 := ⟨fuel - 1, by simp at enough; omega⟩
    rw [cons_append] at scanned ⊢
    rw [scanValue_number number, scanned]
  | .float lexeme, depth, fuel, rest, exact, ends, enough => exact.elim
  | .string text, depth, fuel, rest, exact, ends, enough => by
    obtain ⟨fuel, rfl⟩ : ∃ more, fuel = more + 1 := ⟨fuel - 1, by simp [print, printString] at enough; omega⟩
    rw [print, printString, cons_append, append_assoc, singleton_append, scanValue,
      scanString_escape]
    simp only [Option.map_some, String.ofList_toList]
  | .array [], depth, fuel, rest, exact, ends, enough => by
    obtain ⟨fuel, rfl⟩ : ∃ more, fuel = more + 1 := ⟨fuel - 1, by simp [print] at enough; omega⟩
    rw [print, cons_append, cons_append, nil_append, scanValue, skipWhitespace_cons (by decide)]
    rfl
  | .array (first :: others), depth, fuel, rest, exact, ends, enough => by
    obtain ⟨firstExact, othersExact⟩ := exact
    rw [print] at enough ⊢
    simp only [length_cons, length_append] at enough
    obtain ⟨fuel, rfl⟩ : ∃ more, fuel = more + 1 := ⟨fuel - 1, by omega⟩
    have close : Ends (layout.newline depth ++ ']' :: rest) :=
      ends_blanks (blank.newline depth) (ends_cons (by decide) (by decide) (by decide) (by decide) rest)
    have one := scanValue_print blank first (depth + 1) fuel
      (printElements layout (depth + 1) others ++ (layout.newline depth ++ ']' :: rest)) firstExact
      (ends_elements others (depth + 1) close) (by omega)
    have more := scanElements_print blank others (depth + 1) depth fuel rest othersExact (by omega)
    simp only [cons_append, append_assoc, nil_append]
    rw [scanValue, skipWhitespace_append _ _ (blank.newline (depth + 1)), skipWhitespace_print _ firstExact]
    obtain ⟨c, tail, printed, _, bracket, _⟩ := print_cons layout (depth + 1) firstExact
    split
    · next same =>
      rw [printed, cons_append] at same
      exact absurd (List.cons.inj same).1 bracket
    · rw [one]
      simp only [Option.bind_eq_bind, Option.bind_some]
      rw [more]
      rfl
  | .object [], depth, fuel, rest, exact, ends, enough => by
    obtain ⟨fuel, rfl⟩ : ∃ more, fuel = more + 1 := ⟨fuel - 1, by simp [print] at enough; omega⟩
    rw [print, cons_append, cons_append, nil_append, scanValue, skipWhitespace_cons (by decide)]
    rfl
  | .object ((key, first) :: others), depth, fuel, rest, exact, ends, enough => by
    obtain ⟨firstExact, othersExact⟩ := exact
    rw [print] at enough ⊢
    simp only [length_cons, length_append, printString] at enough
    obtain ⟨fuel, rfl⟩ : ∃ more, fuel = more + 2 := ⟨fuel - 2, by omega⟩
    have close : Ends (layout.newline depth ++ '}' :: rest) :=
      ends_blanks (blank.newline depth) (ends_cons (by decide) (by decide) (by decide) (by decide) rest)
    have value := scanValue_print blank first (depth + 1) fuel
      (printMembers layout (depth + 1) others ++ (layout.newline depth ++ '}' :: rest)) firstExact
      (ends_members others (depth + 1) close) (by omega)
    have one := scanMember_print blank (depth + 1) fuel key firstExact value
    have more := scanMembers_print blank others (depth + 1) depth (fuel + 1) rest othersExact (by omega)
    simp only [cons_append, append_assoc, nil_append]
    rw [scanValue, skipWhitespace_append _ _ (blank.newline (depth + 1))]
    rw [skipWhitespace_printString]
    split
    · next same =>
      rw [printString, cons_append] at same
      exact absurd (List.cons.inj same).1 (by decide)
    · rw [one]
      simp only [Option.bind_eq_bind, Option.bind_some]
      rw [more]
      rfl

theorem scanElements_print {layout : Layout} (blank : layout.Blank) :
    ∀ (items : List Value) (depth outer fuel : Nat) (rest : List Char), ElementsExact items →
      (printElements layout depth items).length + 1 ≤ fuel →
      scanElements fuel (skipWhitespace (printElements layout depth items ++ (layout.newline outer ++ ']' :: rest))) =
        some (items, rest)
  | [], depth, outer, fuel, rest, exact, enough => by
    obtain ⟨fuel, rfl⟩ : ∃ more, fuel = more + 1 := ⟨fuel - 1, by omega⟩
    rw [skipWhitespace_elements blank _ _ _ (by decide)]
    simp only
    rw [scanElements]
  | item :: others, depth, outer, fuel, rest, exact, enough => by
    obtain ⟨itemExact, othersExact⟩ := exact
    rw [skipWhitespace_elements blank _ _ _ (by decide)]
    simp only
    rw [printElements] at enough ⊢
    simp only [length_cons, length_append] at enough
    obtain ⟨fuel, rfl⟩ : ∃ more, fuel = more + 1 := ⟨fuel - 1, by omega⟩
    have close : Ends (layout.newline outer ++ ']' :: rest) :=
      ends_blanks (blank.newline outer) (ends_cons (by decide) (by decide) (by decide) (by decide) rest)
    have one := scanValue_print blank item depth fuel
      (printElements layout depth others ++ (layout.newline outer ++ ']' :: rest)) itemExact
      (ends_elements others depth close) (by omega)
    have more := scanElements_print blank others depth outer fuel rest othersExact (by omega)
    simp only [cons_append, append_assoc]
    rw [scanElements, skipWhitespace_append _ _ (blank.newline depth), skipWhitespace_print _ itemExact, one]
    simp only [Option.bind_eq_bind, Option.bind_some]
    rw [more]
    rfl

theorem scanMembers_print {layout : Layout} (blank : layout.Blank) :
    ∀ (members : List (String × Value)) (depth outer fuel : Nat) (rest : List Char), MembersExact members →
      (printMembers layout depth members).length + 1 ≤ fuel →
      scanMembers fuel (skipWhitespace (printMembers layout depth members ++ (layout.newline outer ++ '}' :: rest))) =
        some (members, rest)
  | [], depth, outer, fuel, rest, exact, enough => by
    obtain ⟨fuel, rfl⟩ : ∃ more, fuel = more + 1 := ⟨fuel - 1, by omega⟩
    rw [skipWhitespace_members blank _ _ _ (by decide)]
    simp only
    rw [scanMembers]
  | (key, item) :: others, depth, outer, fuel, rest, exact, enough => by
    obtain ⟨itemExact, othersExact⟩ := exact
    rw [skipWhitespace_members blank _ _ _ (by decide)]
    simp only
    rw [printMembers] at enough ⊢
    simp only [length_cons, length_append, printString] at enough
    obtain ⟨fuel, rfl⟩ : ∃ more, fuel = more + 2 := ⟨fuel - 2, by omega⟩
    have close : Ends (layout.newline outer ++ '}' :: rest) :=
      ends_blanks (blank.newline outer) (ends_cons (by decide) (by decide) (by decide) (by decide) rest)
    have value := scanValue_print blank item depth fuel
      (printMembers layout depth others ++ (layout.newline outer ++ '}' :: rest)) itemExact
      (ends_members others depth close) (by omega)
    have one := scanMember_print blank depth fuel key itemExact value
    have more := scanMembers_print blank others depth outer (fuel + 1) rest othersExact (by omega)
    simp only [cons_append, append_assoc]
    rw [scanMembers, skipWhitespace_append _ _ (blank.newline depth), skipWhitespace_printString, one]
    simp only [Option.bind_eq_bind, Option.bind_some]
    rw [more]
    rfl
end

theorem loads_print (blank : layout.Blank) (exact : value.Exact)
    {trailing : List Char} (white : ∀ c ∈ trailing, isWhitespace c = true) :
    loads (print layout 0 value ++ trailing) = some value := by
  have ends : Ends trailing := by
    have stop := ends_blanks white ends_nil
    rwa [append_nil] at stop
  have nothing : skipWhitespace trailing = [] := by
    have skipped := skipWhitespace_append trailing [] white
    rwa [append_nil] at skipped
  have scanned := scanValue_print blank value 0 ((print layout 0 value ++ trailing).length + 1) trailing exact ends
    (by rw [length_append]; omega)
  rw [loads, skipWhitespace_print 0 exact, scanned]
  simp only [nothing, if_true]

theorem loads_dumpsCompact (exact : value.Exact) : loads (dumpsCompact value) = some value := by
  have read := loads_print compact_blank exact (forall_mem_nil fun c => isWhitespace c = true)
  rwa [append_nil] at read

theorem dumpsCompact_injective {one two : Value} (oneExact : one.Exact) (twoExact : two.Exact)
    (same : dumpsCompact one = dumpsCompact two) : one = two := by
  have read := loads_dumpsCompact oneExact
  rw [same, loads_dumpsCompact twoExact] at read
  exact (Option.some.inj read).symm

/-! Control characters. -/

def Layout.OneLine (layout : Layout) : Prop :=
  (∀ depth, ∀ c ∈ layout.newline depth, 32 ≤ c.toNat) ∧ ∀ c ∈ layout.colon, 32 ≤ c.toNat

theorem compact_oneLine : compact.OneLine :=
  ⟨fun _ _ member => by simp [compact] at member, fun c member => by
    rw [mem_singleton.mp member]
    decide⟩

theorem hexDigit_printable {n : Nat} (small : n < 32) :
    32 ≤ (hexDigit (n / 16)).toNat ∧ 32 ≤ (hexDigit (n % 16)).toNat := by
  have every : ∀ n : Fin 32, 32 ≤ (hexDigit (n / 16)).toNat ∧ 32 ≤ (hexDigit (n % 16)).toNat := by decide
  exact every ⟨n, small⟩

theorem printable_of_all {chars : List Char} (all : (chars.all fun c => decide (32 ≤ c.toNat)) = true)
    (member : c ∈ chars) : 32 ≤ c.toNat := of_decide_eq_true (all_eq_true.mp all c member)

theorem escapeChar_printable {other : Char} (member : other ∈ escapeChar c) : 32 ≤ other.toNat := by
  unfold escapeChar at member
  iterate 7
    split at member
    · exact printable_of_all rfl member
  split at member
  · next control =>
    have digits := hexDigit_printable control
    simp only [mem_cons, not_mem_nil, or_false] at member
    rcases member with rfl | rfl | rfl | rfl | rfl | rfl
    · decide
    · decide
    · decide
    · decide
    · exact digits.1
    · exact digits.2
  · rw [mem_singleton] at member
    subst member
    omega

theorem printString_printable {text : String} (member : c ∈ printString text) : 32 ≤ c.toNat := by
  rw [printString, mem_cons, mem_append, mem_singleton] at member
  rcases member with rfl | member | rfl
  · decide
  · obtain ⟨other, _, inside⟩ := mem_flatMap.mp member
    exact escapeChar_printable inside
  · decide

theorem printInt_printable {value : Int} (member : c ∈ printInt value) : 32 ≤ c.toNat := by
  have digit : ∀ n, c ∈ Nat.toDigits 10 n → 32 ≤ c.toNat := by
    intro n inside
    have digit := isDigit_of_mem_toDigits inside
    rw [isDigit, Bool.and_eq_true, decide_eq_true_eq, decide_eq_true_eq] at digit
    have low : '0'.toNat ≤ c.toNat := digit.1
    exact Nat.le_trans (by decide) low
  cases value with
  | ofNat n => exact digit n member
  | negSucc n =>
    rcases mem_cons.mp member with rfl | member
    · decide
    · exact digit _ member

mutual
theorem print_printable {layout : Layout} (flat : layout.OneLine) {c : Char} :
    ∀ (value : Value) (depth : Nat), value.Exact → c ∈ print layout depth value → 32 ≤ c.toNat
  | .null, depth, exact, member => by rw [print] at member; exact printable_of_all rfl member
  | .bool true, depth, exact, member => by rw [print] at member; exact printable_of_all rfl member
  | .bool false, depth, exact, member => by rw [print] at member; exact printable_of_all rfl member
  | .int value, depth, exact, member => by rw [print] at member; exact printInt_printable member
  | .float lexeme, depth, exact, member => exact.elim
  | .string text, depth, exact, member => by rw [print] at member; exact printString_printable member
  | .array [], depth, exact, member => by rw [print] at member; exact printable_of_all rfl member
  | .array (first :: others), depth, exact, member => by
    rw [print] at member
    simp only [mem_cons, mem_append, not_mem_nil, or_false] at member
    rcases member with rfl | member | member | member | member | rfl
    · decide
    · exact flat.1 _ _ member
    · exact print_printable flat first (depth + 1) exact.1 member
    · exact printElements_printable flat others (depth + 1) exact.2 member
    · exact flat.1 _ _ member
    · decide
  | .object [], depth, exact, member => by rw [print] at member; exact printable_of_all rfl member
  | .object ((key, first) :: others), depth, exact, member => by
    rw [print] at member
    simp only [mem_cons, mem_append, not_mem_nil, or_false] at member
    rcases member with rfl | member | member | member | member | member | member | rfl
    · decide
    · exact flat.1 _ _ member
    · exact printString_printable member
    · exact flat.2 _ member
    · exact print_printable flat first (depth + 1) exact.1 member
    · exact printMembers_printable flat others (depth + 1) exact.2 member
    · exact flat.1 _ _ member
    · decide

theorem printElements_printable {layout : Layout} (flat : layout.OneLine) {c : Char} :
    ∀ (items : List Value) (depth : Nat), ElementsExact items → c ∈ printElements layout depth items → 32 ≤ c.toNat
  | [], depth, exact, member => by rw [printElements] at member; exact absurd member not_mem_nil
  | item :: others, depth, exact, member => by
    rw [printElements] at member
    simp only [mem_cons, mem_append] at member
    rcases member with rfl | member | member | member
    · decide
    · exact flat.1 _ _ member
    · exact print_printable flat item depth exact.1 member
    · exact printElements_printable flat others depth exact.2 member

theorem printMembers_printable {layout : Layout} (flat : layout.OneLine) {c : Char} :
    ∀ (members : List (String × Value)) (depth : Nat), MembersExact members →
      c ∈ printMembers layout depth members → 32 ≤ c.toNat
  | [], depth, exact, member => by rw [printMembers] at member; exact absurd member not_mem_nil
  | (key, item) :: others, depth, exact, member => by
    rw [printMembers] at member
    simp only [mem_cons, mem_append] at member
    rcases member with rfl | member | member | member | member | member
    · decide
    · exact flat.1 _ _ member
    · exact printString_printable member
    · exact flat.2 _ member
    · exact print_printable flat item depth exact.1 member
    · exact printMembers_printable flat others depth exact.2 member
end

theorem dumpsCompact_printable (exact : value.Exact) (member : c ∈ dumpsCompact value) :
    32 ≤ c.toNat := print_printable compact_oneLine value 0 exact member

end Workctx.Json
