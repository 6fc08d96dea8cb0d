import Workctx.Json.Value

/-! JSON strings in ASCII, as texts of code points: a lone surrogate is kept. -/

namespace Workctx.Json
open List

abbrev Points := List Nat

def isHighSurrogate (code : Nat) : Bool := 0xD800 ≤ code && code < 0xDC00

def isLowSurrogate (code : Nat) : Bool := 0xDC00 ≤ code && code < 0xE000

def printUnit (unit : Nat) : List Char :=
  ['\\', 'u', hexDigit (unit / 4096), hexDigit (unit / 256 % 16), hexDigit (unit / 16 % 16), hexDigit (unit % 16)]

/-- The escapes of `ensure_ascii=True` -/
def printPoint (code : Nat) : List Char :=
  if code = 34 then ['\\', '"']
  else if code = 92 then ['\\', '\\']
  else if code = 10 then ['\\', 'n']
  else if code = 13 then ['\\', 'r']
  else if code = 9 then ['\\', 't']
  else if code = 12 then ['\\', 'f']
  else if code = 8 then ['\\', 'b']
  else if 32 ≤ code ∧ code < 127 then [Char.ofNat code]
  else if code < 0x10000 then printUnit code
  else printUnit (0xD800 + (code - 0x10000) / 0x400) ++ printUnit (0xDC00 + (code - 0x10000) % 0x400)

/-- `json.dumps(text, ensure_ascii=True)` -/
def dumpsPoints (text : Points) : List Char := '"' :: (text.flatMap printPoint ++ ['"'])

/-- What stands for one sign: a unit of UTF-16 that was escaped, or a code point. -/
structure Unit16 where
  escaped : Bool
  code : Nat

def prependUnit (escaped : Bool) (code : Nat) : Option (List Unit16 × List Char) → Option (List Unit16 × List Char) :=
  Option.map fun scanned => (⟨escaped, code⟩ :: scanned.1, scanned.2)

def scanUnits : List Char → Option (List Unit16 × List Char)
  | [] => none
  | '"' :: rest => some ([], rest)
  | '\\' :: '"' :: rest => prependUnit false 34 (scanUnits rest)
  | '\\' :: '\\' :: rest => prependUnit false 92 (scanUnits rest)
  | '\\' :: '/' :: rest => prependUnit false 47 (scanUnits rest)
  | '\\' :: 'b' :: rest => prependUnit false 8 (scanUnits rest)
  | '\\' :: 'f' :: rest => prependUnit false 12 (scanUnits rest)
  | '\\' :: 'n' :: rest => prependUnit false 10 (scanUnits rest)
  | '\\' :: 'r' :: rest => prependUnit false 13 (scanUnits rest)
  | '\\' :: 't' :: rest => prependUnit false 9 (scanUnits rest)
  | '\\' :: 'u' :: a :: b :: c :: d :: rest =>
    match hexValue4 a b c d with
    | none => none
    | some code => prependUnit true code (scanUnits rest)
  | '\\' :: _ => none
  | c :: rest => if c.toNat < 32 then none else prependUnit false c.toNat (scanUnits rest)

/-- An escaped high surrogate and an escaped low one behind it are one code point. -/
def joinUnits : List Unit16 → Points
  | [] => []
  | [one] => [one.code]
  | one :: two :: rest =>
    if one.escaped && two.escaped && isHighSurrogate one.code && isLowSurrogate two.code then
      (0x10000 + (one.code - 0xD800) * 0x400 + (two.code - 0xDC00)) :: joinUnits rest
    else one.code :: joinUnits (two :: rest)

/-- `json.loads` where it gives a string -/
def loadsPoints (text : List Char) : Option Points :=
  match skipWhitespace text with
  | '"' :: rest =>
    match scanUnits rest with
    | some (found, rest) => if skipWhitespace rest = [] then some (joinUnits found) else none
    | none => none
  | _ => none

def joinPairs : Points → Points
  | [] => []
  | [code] => [code]
  | one :: two :: rest =>
    if isHighSurrogate one && isLowSurrogate two then (0x10000 + (one - 0xD800) * 0x400 + (two - 0xDC00)) :: joinPairs rest
    else one :: joinPairs (two :: rest)

def Unpaired (text : Points) : Prop := text.IsChain fun one two => ¬ (isHighSurrogate one = true ∧ isLowSurrogate two = true)

instance (text : Points) : Decidable (Unpaired text) := inferInstanceAs (Decidable (text.IsChain _))

theorem length_joinPairs (text : Points) : (joinPairs text).length ≤ text.length := by
  fun_induction joinPairs text with
  | case1 => exact Nat.le_refl _
  | case2 code => exact Nat.le_refl _
  | case3 one two rest pair ih =>
    rw [length_cons, length_cons, length_cons]
    omega
  | case4 one two rest single ih => exact Nat.succ_le_succ ih

theorem joinPairs_eq_iff (text : Points) : joinPairs text = text ↔ Unpaired text := by
  fun_induction joinPairs text with
  | case1 => simp [Unpaired]
  | case2 code => simp [Unpaired]
  | case3 one two rest pair ih =>
    rw [Bool.and_eq_true] at pair
    constructor
    · intro same
      have shorter := length_joinPairs rest
      have lengths := congrArg List.length same
      rw [length_cons, length_cons, length_cons] at lengths
      omega
    · intro unpaired
      exact absurd pair (isChain_cons_cons.mp unpaired).1
  | case4 one two rest single ih =>
    rw [Bool.and_eq_true] at single
    rw [List.cons.injEq, ih, Unpaired, Unpaired, isChain_cons_cons]
    exact ⟨fun chain => ⟨single, chain.2⟩, fun both => ⟨rfl, both.2⟩⟩

/-! What is written is read back, up to the surrogates in pairs. -/

theorem hexValue_hexDigit {n : Nat} (small : n < 16) : hexValue (hexDigit n) = some n := by
  have every : ∀ n : Fin 16, hexValue (hexDigit n) = some n.val := by decide
  exact every ⟨n, small⟩

theorem hexValue4_printUnit {unit : Nat} (small : unit < 0x10000) :
    hexValue4 (hexDigit (unit / 4096)) (hexDigit (unit / 256 % 16)) (hexDigit (unit / 16 % 16)) (hexDigit (unit % 16)) = some unit := by
  unfold hexValue4
  rw [hexValue_hexDigit (by omega), hexValue_hexDigit (by omega), hexValue_hexDigit (by omega), hexValue_hexDigit (by omega)]
  show some _ = some unit
  congr 1
  omega

theorem scanUnits_printUnit {unit : Nat} (small : unit < 0x10000) (rest : List Char) :
    scanUnits (printUnit unit ++ rest) = prependUnit true unit (scanUnits rest) := by
  show scanUnits ('\\' :: 'u' :: hexDigit (unit / 4096) :: hexDigit (unit / 256 % 16) :: hexDigit (unit / 16 % 16) ::
    hexDigit (unit % 16) :: rest) = _
  rw [scanUnits, hexValue4_printUnit small]

def unitsOf (code : Nat) : List Unit16 :=
  if code ∈ [34, 92, 10, 13, 9, 12, 8] ∨ (32 ≤ code ∧ code < 127) then [⟨false, code⟩]
  else if code < 0x10000 then [⟨true, code⟩]
  else [⟨true, 0xD800 + (code - 0x10000) / 0x400⟩, ⟨true, 0xDC00 + (code - 0x10000) % 0x400⟩]

variable {code : Nat} {c : Char} {text : Points}

theorem toNat_ofNat_visible (visible : code < 127) : (Char.ofNat code).toNat = code := by
  have every : ∀ code < 127, (Char.ofNat code).toNat = code := by decide
  exact every code visible

theorem scanUnits_plain (quote : c ≠ '"') (backslash : c ≠ '\\') (solid : 32 ≤ c.toNat) (rest : List Char) :
    scanUnits (c :: rest) = prependUnit false c.toNat (scanUnits rest) := by
  rw [scanUnits]
  · rw [if_neg (by omega)]
  · exact quote
  all_goals
    intros
    contradiction

theorem scanUnits_printPoint (bound : code < 0x110000) (rest : List Char) :
    scanUnits (printPoint code ++ rest) = (scanUnits rest).map fun scanned => (unitsOf code ++ scanned.1, scanned.2) := by
  by_cases short : code ∈ [34, 92, 10, 13, 9, 12, 8]
  · have units : unitsOf code = [⟨false, code⟩] := if_pos (Or.inl short)
    rw [units]
    simp only [mem_cons, not_mem_nil, or_false] at short
    rcases short with rfl | rfl | rfl | rfl | rfl | rfl | rfl <;> rfl
  · simp only [mem_cons, not_mem_nil, or_false, not_or] at short
    obtain ⟨quote, backslash, feed, carriage, tab, form, back⟩ := short
    unfold printPoint
    rw [if_neg quote, if_neg backslash, if_neg feed, if_neg carriage, if_neg tab, if_neg form, if_neg back]
    by_cases visible : 32 ≤ code ∧ code < 127
    · have units : unitsOf code = [⟨false, code⟩] := if_pos (Or.inr visible)
      have number := toNat_ofNat_visible visible.2
      rw [if_pos visible, units, singleton_append, scanUnits_plain, number]
      · rfl
      · intro same
        rw [same] at number
        exact quote number.symm
      · intro same
        rw [same] at number
        exact backslash number.symm
      · rw [number]
        exact visible.1
    · have none : ¬ (code ∈ [34, 92, 10, 13, 9, 12, 8] ∨ (32 ≤ code ∧ code < 127)) := by
        simp only [mem_cons, not_mem_nil, or_false, not_or]
        exact ⟨⟨quote, backslash, feed, carriage, tab, form, back⟩, visible⟩
      rw [if_neg visible, unitsOf, if_neg none]
      by_cases small : code < 0x10000
      · rw [if_pos small, if_pos small, scanUnits_printUnit small]
        rfl
      · rw [if_neg small, if_neg small, append_assoc, scanUnits_printUnit (by omega), scanUnits_printUnit (by omega)]
        cases scanUnits rest <;> rfl

theorem joinUnits_single {unit : Unit16} (single : (unit.escaped && isHighSurrogate unit.code) = false) (rest : List Unit16) :
    joinUnits (unit :: rest) = unit.code :: joinUnits rest := by
  cases rest with
  | nil => rfl
  | cons next more =>
    have apart : (unit.escaped && next.escaped && isHighSurrogate unit.code && isLowSurrogate next.code) = false := by
      rw [@Bool.and_right_comm unit.escaped, single, Bool.false_and, Bool.false_and]
    rw [joinUnits, apart, if_neg Bool.false_ne_true]

theorem unitsOf_cases (bound : code < 0x110000) :
    (unitsOf code = [⟨false, code⟩] ∧ isLowSurrogate code = false ∧ isHighSurrogate code = false) ∨
    unitsOf code = [⟨true, code⟩] ∨
    ∃ high low, unitsOf code = [⟨true, high⟩, ⟨true, low⟩] ∧ isHighSurrogate high = true ∧ isLowSurrogate high = false ∧
      isLowSurrogate low = true ∧ 0x10000 + (high - 0xD800) * 0x400 + (low - 0xDC00) = code ∧
      isLowSurrogate code = false ∧ isHighSurrogate code = false := by
  simp only [isHighSurrogate, isLowSurrogate, Bool.and_eq_true, Bool.and_eq_false_iff, decide_eq_true_eq, decide_eq_false_iff_not]
  unfold unitsOf
  split
  · next plain =>
    left
    have small : code < 127 := by
      simp only [mem_cons, not_mem_nil, or_false] at plain
      omega
    exact ⟨rfl, by omega, by omega⟩
  split
  · exact Or.inr (Or.inl rfl)
  · right
    right
    exact ⟨_, _, rfl, by omega, by omega, by omega, by omega, by omega, by omega⟩

section
variable (bounds : ∀ code ∈ text, code < 0x110000)
include bounds

theorem joinUnits_flatMap : joinUnits (text.flatMap unitsOf) = joinPairs text := by
  induction text using joinPairs.induct with
  | case1 => rfl
  | case2 code =>
    rw [flatMap_singleton]
    rcases unitsOf_cases (bounds code mem_cons_self) with ⟨units, _⟩ | units | ⟨high, low, units, isHigh, _, isLow, whole, _⟩
    · rw [units]
      rfl
    · rw [units]
      rfl
    · rw [units, joinUnits, isHigh, isLow, whole]
      rfl
  | case3 one two rest pair ih =>
    have later := ih fun code member => bounds code (mem_cons_of_mem one (mem_cons_of_mem two member))
    have paired := Bool.and_eq_true_iff.mp pair
    have first : unitsOf one = [⟨true, one⟩] := by
      rcases unitsOf_cases (bounds one mem_cons_self) with ⟨_, _, other⟩ | units | ⟨_, _, _, _, _, _, _, _, other⟩
      · exact absurd (other.symm.trans paired.1) (by decide)
      · exact units
      · exact absurd (other.symm.trans paired.1) (by decide)
    have second : unitsOf two = [⟨true, two⟩] := by
      rcases unitsOf_cases (bounds two (mem_cons_of_mem one mem_cons_self)) with ⟨_, other, _⟩ | units | ⟨_, _, _, _, _, _, _, other, _⟩
      · exact absurd (other.symm.trans paired.2) (by decide)
      · exact units
      · exact absurd (other.symm.trans paired.2) (by decide)
    rw [flatMap_cons, flatMap_cons, first, second, singleton_append, singleton_append, joinUnits, joinPairs, if_pos pair, later]
    exact if_pos pair
  | case4 one two rest single ih =>
    have later := ih fun code member => bounds code (mem_cons_of_mem one member)
    rw [joinPairs, if_neg single, ← later, flatMap_cons]
    rcases unitsOf_cases (bounds one mem_cons_self) with ⟨units, _, other⟩ | units | ⟨high, low, units, isHigh, _, isLow, whole, _⟩
    · rw [units, singleton_append, joinUnits_single]
      exact Bool.false_and _
    · rw [units, singleton_append, flatMap_cons]
      rcases unitsOf_cases (bounds two (mem_cons_of_mem one mem_cons_self)) with ⟨units', _⟩ | units' | ⟨high, low, units', _, other, _⟩
      · rw [units', singleton_append, joinUnits, if_neg (by simp)]
      · rw [units', singleton_append, joinUnits, if_neg]
        exact single
      · rw [units', cons_append, joinUnits, if_neg (by simp [other])]
    · rw [units, cons_append, cons_append, nil_append, joinUnits, isHigh, isLow, whole]
      rfl

theorem scanUnits_dumps (rest : List Char) :
    scanUnits (text.flatMap printPoint ++ '"' :: rest) = some (text.flatMap unitsOf, rest) := by
  induction text with
  | nil => rfl
  | cons code more ih =>
    rw [flatMap_cons, append_assoc, scanUnits_printPoint (bounds code mem_cons_self),
      ih fun other member => bounds other (mem_cons_of_mem code member), Option.map_some, flatMap_cons]

theorem loadsPoints_dumpsPoints :
    loadsPoints (dumpsPoints text) = some (joinPairs text) := by
  have solid : skipWhitespace (dumpsPoints text) = '"' :: (text.flatMap printPoint ++ ['"']) := by
    rw [dumpsPoints, skipWhitespace, dropWhile_cons_of_neg (by decide)]
  rw [loadsPoints, solid]
  show (match scanUnits (text.flatMap printPoint ++ ['"']) with
    | some (found, rest) => if skipWhitespace rest = [] then some (joinUnits found) else none
    | none => none) = some (joinPairs text)
  rw [scanUnits_dumps bounds []]
  exact congrArg some (joinUnits_flatMap bounds)

end

/-! What is read are code points. -/

theorem hexValue_lt {value : Nat} (read : hexValue c = some value) : value < 16 := by
  unfold hexValue at read
  split at read
  · next digit =>
    cases read
    simp only [Char.le_def, UInt32.le_iff_toNat_le] at digit
    simp only [Char.toNat]
    have top : '9'.val.toNat = 57 := rfl
    have base : '0'.val.toNat = 48 := rfl
    omega
  split at read
  · next digit =>
    cases read
    simp only [Char.le_def, UInt32.le_iff_toNat_le] at digit
    simp only [Char.toNat]
    have top : 'f'.val.toNat = 102 := rfl
    have base : 'a'.val.toNat = 97 := rfl
    omega
  split at read
  · next digit =>
    cases read
    simp only [Char.le_def, UInt32.le_iff_toNat_le] at digit
    simp only [Char.toNat]
    have top : 'F'.val.toNat = 70 := rfl
    have base : 'A'.val.toNat = 65 := rfl
    omega
  · cases read

theorem hexValue4_lt {a b d : Char} {value : Nat} (read : hexValue4 a b c d = some value) : value < 0x10000 := by
  simp only [hexValue4, Option.bind_eq_bind, Option.bind_eq_some_iff, Option.pure_def, Option.some.injEq] at read
  obtain ⟨one, first, two, second, three, third, four, fourth, rfl⟩ := read
  have bounds := And.intro (hexValue_lt first) (And.intro (hexValue_lt second) (And.intro (hexValue_lt third) (hexValue_lt fourth)))
  omega

def Scanned (result : Option (List Unit16 × List Char)) : Prop := ∀ scanned ∈ result, ∀ unit ∈ scanned.1, unit.code < 0x110000

theorem Scanned.prepend {result : Option (List Unit16 × List Char)} (scanned : Scanned result) (escaped : Bool) (bound : code < 0x110000) :
    Scanned (prependUnit escaped code result) := by
  intro whole held unit member
  rw [prependUnit, Option.mem_def, Option.map_eq_some_iff] at held
  obtain ⟨later, found, rfl⟩ := held
  cases mem_cons.mp member with
  | inl first => exact first ▸ bound
  | inr inside => exact scanned later found unit inside

theorem toNat_lt (c : Char) : c.toNat < 0x110000 := by
  have number : c.toNat = c.val.toNat := rfl
  rcases c.valid with low | high
  · omega
  · omega

theorem scanUnits_bounds (text : List Char) : Scanned (scanUnits text) := by
  have empty : Scanned none := fun _ held => absurd held (by simp)
  fun_induction scanUnits text with
  | case1 => exact empty
  | case2 rest =>
    intro scanned held unit member
    rw [Option.mem_some_iff] at held
    rw [← held] at member
    exact absurd member not_mem_nil
  | case11 => exact empty
  | case12 a b c d rest code read ih => exact ih.prepend true (Nat.lt_trans (hexValue4_lt read) (by decide))
  | case13 => exact empty
  | case14 => exact empty
  | case15 => exact Scanned.prepend ‹_› false (toNat_lt _)
  | _ => exact Scanned.prepend ‹_› false (by decide)

theorem joinUnits_bounds {units : List Unit16} (bounds : ∀ unit ∈ units, unit.code < 0x110000) : ∀ code ∈ joinUnits units, code < 0x110000 := by
  fun_induction joinUnits units with
  | case1 => simp
  | case2 one =>
    intro code member
    rw [mem_singleton.mp member]
    exact bounds one mem_cons_self
  | case3 one two rest pair ih =>
    intro code member
    cases mem_cons.mp member with
    | inl joined =>
      simp only [isHighSurrogate, isLowSurrogate, Bool.and_eq_true, decide_eq_true_eq] at pair
      rw [joined]
      omega
    | inr inside => exact ih (fun unit held => bounds unit (mem_cons_of_mem one (mem_cons_of_mem two held))) code inside
  | case4 one two rest single ih =>
    intro code member
    cases mem_cons.mp member with
    | inl first =>
      rw [first]
      exact bounds one mem_cons_self
    | inr inside => exact ih (fun unit held => bounds unit (mem_cons_of_mem one held)) code inside

theorem loadsPoints_bounds {text : List Char} {points : Points} (read : loadsPoints text = some points) : ∀ code ∈ points, code < 0x110000 := by
  unfold loadsPoints at read
  split at read
  · next rest _ =>
    split at read
    · next found left scanned =>
      split at read
      · cases read
        exact joinUnits_bounds (scanUnits_bounds rest (found, left) scanned)
      · cases read
    · cases read
  · cases read

theorem hexDigit_visible {n : Nat} (small : n < 16) : 32 ≤ (hexDigit n).toNat ∧ (hexDigit n).toNat < 127 := by
  have every : ∀ n : Fin 16, 32 ≤ (hexDigit n).toNat ∧ (hexDigit n).toNat < 127 := by decide
  exact every ⟨n, small⟩

theorem printUnit_visible {unit : Nat} (small : unit < 0x10000) (member : c ∈ printUnit unit) : 32 ≤ c.toNat ∧ c.toNat < 127 := by
  simp only [printUnit, mem_cons, not_mem_nil, or_false] at member
  rcases member with rfl | rfl | rfl | rfl | rfl | rfl
  · decide
  · decide
  all_goals
    apply hexDigit_visible
    omega

theorem printPoint_visible (bound : code < 0x110000) (member : c ∈ printPoint code) : 32 ≤ c.toNat ∧ c.toNat < 127 := by
  have short : ∀ {one two : Char}, (32 ≤ one.toNat ∧ one.toNat < 127) → (32 ≤ two.toNat ∧ two.toNat < 127) → c ∈ [one, two] →
      32 ≤ c.toNat ∧ c.toNat < 127 := by
    intro one two first second held
    simp only [mem_cons, not_mem_nil, or_false] at held
    rcases held with rfl | rfl
    · exact first
    · exact second
  unfold printPoint at member
  iterate 7
    split at member
    · exact short (by decide) (by decide) member
  split at member
  · next visible =>
    rw [mem_singleton.mp member, toNat_ofNat_visible visible.2]
    exact visible
  split at member
  · next small => exact printUnit_visible small member
  · cases mem_append.mp member with
    | inl high => exact printUnit_visible (by omega) high
    | inr low => exact printUnit_visible (by omega) low

theorem dumpsPoints_visible (bounds : ∀ code ∈ text, code < 0x110000) (member : c ∈ dumpsPoints text) :
    32 ≤ c.toNat ∧ c.toNat < 127 := by
  cases mem_cons.mp member with
  | inl same => exact same ▸ by decide
  | inr inside =>
    cases mem_append.mp inside with
    | inl text_ =>
      obtain ⟨code, held, printed⟩ := mem_flatMap.mp text_
      exact printPoint_visible (bounds code held) printed
    | inr closing => exact mem_singleton.mp closing ▸ by decide

end Workctx.Json
