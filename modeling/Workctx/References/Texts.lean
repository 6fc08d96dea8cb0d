import Workctx.Domain.Uris
import Workctx.Domain.Checks

/-! Strings as the references read them: sequences of code points, lone surrogates among them, and the percent encoding. -/

namespace Workctx.References
open Workctx.Domain (hexValue quoteByte)
open Workctx.Text

/-- A character of a string; a surrogate stands for no character of Unicode and has no bytes in UTF-8. -/
inductive CodePoint where
  | scalar (c : Char)
  | surrogate (unit : Fin 2048)
deriving DecidableEq

abbrev Text := List CodePoint

def CodePoint.is (test : Char → Bool) : CodePoint → Bool
  | .scalar c => test c
  | .surrogate _ => false

def literal (chars : List Char) : Text := chars.map .scalar

def CodePoint.scalar? : CodePoint → Option Char
  | .scalar c => some c
  | .surrogate _ => none

def scalars? (text : Text) : Option (List Char) := text.mapM CodePoint.scalar?

def fullmatch (pattern : List Char → Bool) (text : Text) : Bool := (scalars? text).any pattern

/-- The errors of the references, all of them `ValueError`. -/
inductive ReferenceError where
  | value (message : String)
  /-- An id that is not of an observation, which the message quotes -/
  | observationId (id : Text)
  /-- A type outside the vocabulary, which the message quotes -/
  | entityType (name : Text)
  /-- `UnicodeEncodeError` of `quote` -/
  | encode
  /-- `UnicodeDecodeError` of `unquote` -/
  | decode
  /-- Of `urlparse`: the host is not one of a URL -/
  | host
  /-- Of `int` and `str`: more digits than the interpreter converts -/
  | digits
deriving DecidableEq

def require (test : Bool) (message : String) : Except ReferenceError Unit := if test then .ok () else .error (.value message)

/-! Percent encoding. -/

/-- `quote`, which encodes each byte of a text. -/
def quoteWith (each : UInt8 → List Char) (text : Text) : Except ReferenceError Text :=
  match scalars? text with
  | some chars => .ok (literal ((encodeUtf8 chars).flatMap each))
  | none => .error .encode

/-- `quote(text, safe="-._~")` -/
def quote (text : Text) : Except ReferenceError Text := quoteWith quoteByte text

def slashByte : UInt8 := 47

def quotePathByte (byte : UInt8) : List Char := if byte = slashByte then ['/'] else quoteByte byte

/-- `quote` with the slash among the safe characters -/
def quotePath (text : Text) : Except ReferenceError Text := quoteWith quotePathByte text

/-- `_INVALID_PERCENT_ESCAPE_PATTERN.search` finds nothing. -/
def validEscapes : Text → Bool
  | [] => true
  | .scalar '%' :: rest =>
    match rest with
    | .scalar high :: .scalar low :: _ => (hexValue high).isSome && (hexValue low).isSome && validEscapes rest
    | _ => false
  | _ :: rest => validEscapes rest

/-- A run of ASCII characters, whose escapes are read and decoded together. -/
def unquoteRun (run : List Char) : Except ReferenceError Text :=
  match Domain.unquote run with
  | some read => .ok (literal read.toList)
  | none => .error .decode

/-- The loop of `unquote(text, errors="strict")` on a text with valid escapes, with the characters of the current run. -/
def unquoteRuns (run : List Char) : Text → Except ReferenceError Text
  | [] => unquoteRun run
  | point :: rest =>
    match point.scalar?.filter fun c => decide (c.toNat < 128) with
    | some c => unquoteRuns (run ++ [c]) rest
    | none => do
      let front ← unquoteRun run
      let back ← unquoteRuns [] rest
      .ok (front ++ point :: back)

def unquote (text : Text) : Except ReferenceError Text := unquoteRuns [] text

/-! Texts without surrogates. -/

@[simp] theorem scalars?_literal (chars : List Char) : scalars? (literal chars) = some chars := by
  induction chars with
  | nil => rfl
  | cons c rest ih =>
    unfold scalars? literal at *
    rw [List.map_cons, List.mapM_cons, ih]
    rfl

variable {chars : List Char} {c : Char}

theorem literal_of_scalars? {text : Text} (read : scalars? text = some chars) : text = literal chars := by
  induction text generalizing chars with
  | nil =>
    cases read
    rfl
  | cons point rest ih =>
    unfold scalars? at read ih
    rw [List.mapM_cons] at read
    cases point with
    | surrogate unit => cases read
    | scalar c =>
      cases more : rest.mapM CodePoint.scalar? with
      | none =>
        rw [more] at read
        cases read
      | some others =>
        rw [more] at read
        cases read
        rw [ih more]
        rfl

theorem fullmatch_literal (pattern : List Char → Bool) (chars : List Char) : fullmatch pattern (literal chars) = pattern chars := by
  unfold fullmatch
  rw [scalars?_literal]
  rfl

theorem exists_of_fullmatch {pattern : List Char → Bool} {text : Text} (matched : fullmatch pattern text = true) :
    ∃ chars, text = literal chars ∧ pattern chars = true := by
  unfold fullmatch at matched
  cases read : scalars? text with
  | none =>
    rw [read] at matched
    cases matched
  | some chars =>
    rw [read] at matched
    exact ⟨chars, literal_of_scalars? read, matched⟩

@[simp] theorem literal_append (front back : List Char) : literal (front ++ back) = literal front ++ literal back := List.map_append

theorem forall_mem_of_all {α : Type} {test : α → Prop} [DecidablePred test] {items : List α}
    (every : items.all (fun item => decide (test item)) = true) : ∀ item ∈ items, test item :=
  fun item member => of_decide_eq_true (List.all_eq_true.mp every item member)

theorem literal_injective : Function.Injective literal := List.map_injective_iff.mpr fun _ _ same => CodePoint.scalar.inj same

theorem mem_literal {point : CodePoint} : point ∈ literal chars ↔ ∃ c ∈ chars, CodePoint.scalar c = point := List.mem_map

theorem scalar_mem_literal : CodePoint.scalar c ∈ literal chars ↔ c ∈ chars := by
  simp [literal]

/-! Encoded texts. -/

theorem quoteWith_ok {each : UInt8 → List Char} {text encoded : Text} : quoteWith each text = .ok encoded ↔
    ∃ chars, text = literal chars ∧ encoded = literal ((encodeUtf8 chars).flatMap each) := by
  unfold quoteWith
  cases read : scalars? text with
  | none =>
    constructor
    · intro done
      cases done
    · rintro ⟨chars, rfl, _⟩
      rw [scalars?_literal] at read
      cases read
  | some chars =>
    have own := literal_of_scalars? read
    subst own
    constructor
    · intro done
      exact ⟨chars, rfl, (Except.ok.inj done).symm⟩
    · rintro ⟨others, same, rfl⟩
      rw [literal_injective same]

theorem quoteWith_returns {each : UInt8 → List Char} {text : Text} :
    (∃ encoded, quoteWith each text = .ok encoded) ↔ (scalars? text).isSome = true := by
  unfold quoteWith
  cases scalars? text with
  | none => simp
  | some chars => simp

/-- What `quotePath` leaves in an encoded text; `quote` leaves no slash. -/
def isQuoted (c : Char) : Bool := Domain.isUnreserved c || c == '%' || c == '/'

theorem quoteByte_quoted (byte : UInt8) : ∀ c ∈ quoteByte byte, isQuoted c = true := by
  intro c member
  have small : byte.toNat / 16 < 16 ∧ byte.toNat % 16 < 16 := by
    have := byte.toNat_lt
    omega
  have digit : ∀ n < 16, isQuoted (Domain.upperHexDigit n) = true := by decide
  unfold quoteByte at member
  split at member
  · next plain =>
    rw [Bool.and_eq_true] at plain
    rw [List.mem_singleton.mp member]
    unfold isQuoted
    rw [plain.2, Bool.true_or, Bool.true_or]
  · simp only [List.mem_cons, List.not_mem_nil, or_false] at member
    rcases member with rfl | rfl | rfl
    · decide
    · exact digit _ small.1
    · exact digit _ small.2

theorem quotePathByte_quoted (byte : UInt8) : ∀ c ∈ quotePathByte byte, isQuoted c = true := by
  unfold quotePathByte
  split
  · exact forall_mem_of_all (by decide)
  · exact quoteByte_quoted byte

theorem isAlpha_of_isLower (lower : c.isLower = true) : c.isAlpha = true := Bool.or_eq_true_iff.mpr (.inr lower)

theorem isLower_iff : c.isLower = true ↔ 97 ≤ c.toNat ∧ c.toNat ≤ 122 := Bool.and_eq_true_iff.trans
  (and_congr (decide_eq_true_iff.trans UInt32.le_iff_toNat_le) (decide_eq_true_iff.trans UInt32.le_iff_toNat_le))

theorem isUpper_iff : c.isUpper = true ↔ 65 ≤ c.toNat ∧ c.toNat ≤ 90 := decide_eq_true_iff.trans
  (and_congr UInt32.le_iff_toNat_le UInt32.le_iff_toNat_le)

theorem isAlphanum_cases (letter : c.isAlphanum = true) : c.isUpper = true ∨ c.isLower = true ∨ c.isDigit = true :=
  (Bool.or_eq_true_iff.mp letter).elim (fun alpha => (Bool.or_eq_true_iff.mp alpha).imp_right .inl) fun digit => .inr (.inr digit)

theorem isQuoted_ascii (quoted : isQuoted c = true) : 32 < c.toNat ∧ c.toNat < 128 := by
  unfold isQuoted Domain.isUnreserved at quoted
  simp only [Bool.or_eq_true, beq_iff_eq] at quoted
  have plain : c.isAlphanum = true → 32 < c.toNat ∧ c.toNat < 128 := by
    intro letter
    rcases isAlphanum_cases letter with upper | lower | digit
    · have := isUpper_iff.mp upper
      omega
    · have := isLower_iff.mp lower
      omega
    · simp only [Char.isDigit, Bool.and_eq_true, decide_eq_true_eq, ge_iff_le, UInt32.le_iff_toNat_le] at digit
      have : c.val.toNat = c.toNat := rfl
      simp at digit
      omega
  rcases quoted with ((((((letter | rfl) | rfl) | rfl) | rfl) | rfl) | rfl)
  · exact plain letter
  all_goals decide

theorem forall_ascii (test : Char → Prop) (every : ∀ n < 128, test (Char.ofNat n)) (small : c.toNat < 128) : test c := by
  rw [← Char.ofNat_toNat c]
  exact every c.toNat small

/-! What is encoded is read back. -/

/-- An encoding of bytes that the escapes are read from. -/
structure Encodes (each : UInt8 → List Char) : Prop where
  reads : ∀ byte rest, Domain.unquoteBytes (each byte ++ rest) = (Domain.unquoteBytes rest).map (byte :: ·)
  escapes : ∀ byte rest, validEscapes (literal (each byte) ++ rest) = validEscapes rest
  quoted : ∀ byte, ∀ c ∈ each byte, isQuoted c = true

theorem validEscapes_cons (plain : c ≠ '%') (rest : Text) : validEscapes (.scalar c :: rest) = validEscapes rest :=
  validEscapes.eq_4 _ rest fun same => plain (CodePoint.scalar.inj same)

theorem validEscapes_quoteByte (byte : UInt8) (rest : Text) : validEscapes (literal (quoteByte byte) ++ rest) = validEscapes rest := by
  have small : byte.toNat / 16 < 16 ∧ byte.toNat % 16 < 16 := by
    have := byte.toNat_lt
    omega
  have digit : ∀ n < 16, Domain.upperHexDigit n ≠ '%' := by decide
  unfold quoteByte
  split
  · next plain =>
    rw [Bool.and_eq_true] at plain
    exact validEscapes_cons (Domain.isUnreserved_plain plain.2).1 rest
  · simp only [literal, List.map_cons, List.map_nil, List.cons_append, List.nil_append]
    rw [validEscapes, Domain.hexValue_upperHexDigit _ small.1, Domain.hexValue_upperHexDigit _ small.2,
      validEscapes_cons (digit _ small.1), validEscapes_cons (digit _ small.2)]
    rfl

theorem encodes_quoteByte : Encodes quoteByte := ⟨Domain.unquoteBytes_quoteByte, validEscapes_quoteByte, quoteByte_quoted⟩

theorem encodes_quotePathByte : Encodes quotePathByte where
  reads byte rest := by
    unfold quotePathByte
    split
    · next slash =>
      rw [slash, List.singleton_append, Domain.unquoteBytes.eq_def]
      dsimp only
      rw [if_neg (by decide)]
      cases Domain.unquoteBytes rest <;> rfl
    · exact Domain.unquoteBytes_quoteByte byte rest
  escapes byte rest := by
    unfold quotePathByte
    split
    · exact validEscapes_cons (by decide) rest
    · exact validEscapes_quoteByte byte rest
  quoted := quotePathByte_quoted

section
variable {each : UInt8 → List Char} (encodes : Encodes each)
include encodes

theorem Encodes.quoted_flatMap (bytes : Bytes) : ∀ c ∈ bytes.flatMap each, isQuoted c = true := by
  intro c member
  obtain ⟨byte, _, inside⟩ := List.mem_flatMap.mp member
  exact encodes.quoted byte c inside

theorem Encodes.validEscapes (bytes : Bytes) : validEscapes (literal (bytes.flatMap each)) = true := by
  induction bytes with
  | nil => rfl
  | cons byte rest ih => rw [List.flatMap_cons, literal_append, encodes.escapes, ih]

theorem Encodes.unquoteBytes (bytes : Bytes) : Domain.unquoteBytes (bytes.flatMap each) = some bytes := by
  induction bytes with
  | nil => rfl
  | cons byte rest ih => rw [List.flatMap_cons, encodes.reads, ih, Option.map_some]

theorem Encodes.filled {chars : List Char} (filled : chars ≠ []) : (encodeUtf8 chars).flatMap each ≠ [] := by
  intro empty
  have read := encodes.unquoteBytes (encodeUtf8 chars)
  rw [empty, Domain.unquoteBytes] at read
  exact filled (encodeUtf8_injective (Option.some.inj read).symm)

end

theorem unquoteRuns_ascii (run : List Char) (ascii : ∀ c ∈ chars, c.toNat < 128) :
    unquoteRuns run (literal chars) = unquoteRun (run ++ chars) := by
  induction chars generalizing run with
  | nil =>
    rw [List.append_nil]
    rfl
  | cons c rest ih =>
    obtain ⟨small, others⟩ := List.forall_mem_cons.mp ascii
    have kept : (CodePoint.scalar c).scalar?.filter (fun c => decide (c.toNat < 128)) = some c :=
      Option.filter_eq_some_iff.mpr ⟨rfl, decide_eq_true small⟩
    rw [literal, List.map_cons, unquoteRuns, kept]
    dsimp only
    rw [← literal, ih (run ++ [c]) others, List.append_assoc, List.singleton_append]

theorem Encodes.unquote {each : UInt8 → List Char} (encodes : Encodes each) (chars : List Char) :
    unquote (literal ((encodeUtf8 chars).flatMap each)) = .ok (literal chars) := by
  have ascii : ∀ c ∈ (encodeUtf8 chars).flatMap each, c.toNat < 128 :=
    fun c member => (isQuoted_ascii (encodes.quoted_flatMap _ c member)).2
  unfold References.unquote
  rw [unquoteRuns_ascii [] ascii]
  unfold unquoteRun Domain.unquote
  rw [List.nil_append, encodes.unquoteBytes, Option.bind_some, decodeUtf8_encodeUtf8, Option.map_some]
  dsimp only
  rw [String.toList_ofList]

end Workctx.References
