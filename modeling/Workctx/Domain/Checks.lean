import Mathlib.Data.List.Forall2
import Workctx.Domain.Patterns

/-! The checks of the models: a validator is a sequence of tests, and its error is the text of the
first one that fails. -/

namespace Workctx.Domain
open List
variable {ε α β : Type}

def check (test : Bool) (message : String) : Except String Unit := if test then .ok () else .error message

/-- A constraint of a field; the error names the field, and its text is not the program's own. -/
def constrain (test : Bool) (field : String) : Except String Unit := check test field

def checkEach (validator : α → Except ε Unit) : List α → Except ε Unit
  | [] => .ok ()
  | value :: rest => do
    validator value
    checkEach validator rest

/-- The same validator over a value that may be absent. -/
def checkSome (validator : α → Except ε Unit) : Option α → Except ε Unit
  | none => .ok ()
  | some value => validator value

theorem check_ok {test : Bool} {message : String} : check test message = .ok () ↔ test = true := by
  cases test <;> simp [check]

theorem bind_ok {first : Except ε α} {next : α → Except ε β} {value : β} :
    (do
      let middle ← first
      next middle) = .ok value ↔ ∃ middle, first = .ok middle ∧ next middle = .ok value := by
  cases first with
  | ok middle => simp [bind, Except.bind]
  | error error => simp [bind, Except.bind]

theorem check_bind_ok {test : Bool} {message : String} {next : Unit → Except String β} {value : β} :
    (do
      let middle ← check test message
      next middle) = .ok value ↔ test = true ∧ next () = .ok value := by
  rw [bind_ok]
  constructor
  · rintro ⟨middle, passed, later⟩
    exact ⟨check_ok.mp passed, later⟩
  · rintro ⟨passed, later⟩
    exact ⟨(), check_ok.mpr passed, later⟩

theorem constrain_bind_ok {test : Bool} {field : String} {next : Unit → Except String β} {value : β} :
    (do
      let middle ← constrain test field
      next middle) = .ok value ↔ test = true ∧ next () = .ok value := check_bind_ok

theorem checkSome_ok {validator : α → Except ε Unit} {optional : Option α} :
    checkSome validator optional = .ok () ↔ ∀ value, optional = some value → validator value = .ok () := by
  cases optional <;> simp [checkSome]

theorem checkEach_ok {validator : α → Except ε Unit} {values : List α} :
    checkEach validator values = .ok () ↔ ∀ value ∈ values, validator value = .ok () := by
  induction values with
  | nil => simp [checkEach]
  | cons value rest ih =>
    rw [checkEach, bind_ok, forall_mem_cons]
    constructor
    · rintro ⟨middle, passed, later⟩
      exact ⟨passed, ih.mp later⟩
    · rintro ⟨passed, later⟩
      exact ⟨(), passed, ih.mpr later⟩

theorem mapError_ok {δ : Type} {result : Except ε α} {wrap : ε → δ} {value : α} :
    result.mapError wrap = .ok value ↔ result = .ok value := by
  cases result <;> simp [Except.mapError]

theorem mapM_ok_iff {items : List α} {read : α → Except ε β} {results : List β} :
    items.mapM read = .ok results ↔ List.Forall₂ (fun item result => read item = .ok result) items results := by
  induction items generalizing results with
  | nil =>
    rw [mapM_nil, forall₂_nil_left_iff]
    exact ⟨fun same => by cases same; rfl, fun same => by rw [same]; rfl⟩
  | cons item rest ih =>
    rw [mapM_cons, bind_ok, forall₂_cons_left_iff]
    constructor
    · rintro ⟨first, one, later⟩
      obtain ⟨others, all, same⟩ := bind_ok.mp later
      cases same
      exact ⟨first, others, one, ih.mp all, rfl⟩
    · rintro ⟨first, others, one, all, rfl⟩
      exact ⟨first, one, bind_ok.mpr ⟨others, ih.mpr all, rfl⟩⟩

theorem mem_of_mapM {items : List α} {read : α → Except ε β} {results : List β} (done : items.mapM read = .ok results)
    {result : β} (member : result ∈ results) : ∃ item ∈ items, read item = .ok result := by
  induction mapM_ok_iff.mp done with
  | nil => cases member
  | @cons first one rest others here _ ih =>
    cases mem_cons.mp member with
    | inl same => exact ⟨first, mem_cons_self, same ▸ here⟩
    | inr later =>
      obtain ⟨item, inside, read⟩ := ih (mapM_ok_iff.mpr ‹_›) later
      exact ⟨item, mem_cons_of_mem first inside, read⟩

/-! Texts. -/

/-- `str.isspace` for one character. -/
def isSpace (c : Char) : Bool :=
  (0x09 ≤ c.toNat && c.toNat ≤ 0x0D) || (0x1C ≤ c.toNat && c.toNat ≤ 0x20) || c.toNat == 0x85 || c.toNat == 0xA0 ||
    c.toNat == 0x1680 || (0x2000 ≤ c.toNat && c.toNat ≤ 0x200A) || c.toNat == 0x2028 || c.toNat == 0x2029 ||
    c.toNat == 0x202F || c.toNat == 0x205F || c.toNat == 0x3000

def strip (text : List Char) : List Char := ((text.dropWhile isSpace).reverse.dropWhile isSpace).reverse

def isControl (c : Char) : Bool := c.toNat < 32 || c.toNat == 127

def lengthBetween (least most : Nat) (text : String) : Bool := least ≤ text.length && text.length ≤ most

def isSlugChar (c : Char) : Bool := isLowerAlnum c || c == '-'

theorem slugChar_of_lowerAlnum {c : Char} (plain : isLowerAlnum c = true) : isSlugChar c = true := by
  rw [isSlugChar, plain, Bool.true_or]

theorem mem_intercalate {separator c : Char} {parts : List (List Char)} :
    c ∈ [separator].intercalate parts → c = separator ∨ ∃ part ∈ parts, c ∈ part := by
  induction parts with
  | nil => simp
  | cons part rest ih =>
    cases rest with
    | nil =>
      rw [intercalate_singleton]
      exact fun inside => .inr ⟨part, mem_cons_self, inside⟩
    | cons next others =>
      rw [intercalate_cons_cons]
      intro member
      rcases mem_append.mp member with front | tail
      · rcases mem_append.mp front with inside | same
        · exact .inr ⟨part, mem_cons_self, inside⟩
        · exact .inl (mem_singleton.mp same)
      · rcases ih tail with same | ⟨other, known, inside⟩
        · exact .inl same
        · exact .inr ⟨other, mem_cons_of_mem _ known, inside⟩

theorem head_mem_intercalate {separator c : Char} {part : List Char} {rest : List (List Char)} (inside : c ∈ part) :
    c ∈ [separator].intercalate (part :: rest) := by
  cases rest with
  | nil =>
    rw [intercalate_singleton]
    exact inside
  | cons next others =>
    rw [intercalate_cons_cons]
    exact mem_append_left _ (mem_append_left _ inside)

/-- The characters of a slug are letters, digits and hyphens, and one is not a hyphen. -/
theorem matchesSlug_chars {text : List Char} (slug : matchesSlug text = true) :
    (∀ c ∈ text, isSlugChar c = true) ∧ ∃ c ∈ text, isLowerAlnum c = true := by
  rw [matchesSlug, all_eq_true] at slug
  have parts : ∀ part ∈ text.splitOn '-', part ≠ [] ∧ ∀ c ∈ part, isLowerAlnum c = true := by
    intro part known
    have tested := slug part known
    rw [Bool.and_eq_true, all_eq_true, Bool.not_eq_true', isEmpty_eq_false_iff] at tested
    exact tested
  have whole : List.intercalate ['-'] (text.splitOn '-') = text := intercalate_splitOn '-'
  constructor
  · intro c member
    rw [← whole] at member
    rcases mem_intercalate member with same | ⟨part, known, inside⟩
    · rw [same]
      rfl
    · exact slugChar_of_lowerAlnum ((parts part known).2 c inside)
  · obtain ⟨part, rest, split⟩ := exists_cons_of_ne_nil (splitOn_ne_nil '-' text)
    have known : part ∈ text.splitOn '-' := by
      rw [split]
      exact mem_cons_self
    obtain ⟨c, others, first⟩ := exists_cons_of_ne_nil (parts part known).1
    have inside : c ∈ part := by
      rw [first]
      exact mem_cons_self
    refine ⟨c, ?_, (parts part known).2 c inside⟩
    rw [← whole, split]
    exact head_mem_intercalate inside

theorem isSlugChar_range {c : Char} (slug : isSlugChar c = true) :
    (97 ≤ c.toNat ∧ c.toNat ≤ 122) ∨ (48 ≤ c.toNat ∧ c.toNat ≤ 57) ∨ c.toNat = 45 := by
  simp only [isSlugChar, isLowerAlnum, Bool.or_eq_true, Bool.and_eq_true, decide_eq_true_eq, beq_iff_eq] at slug
  rcases slug with (⟨low, high⟩ | ⟨low, high⟩) | same
  · exact .inl ⟨low, high⟩
  · exact .inr (.inl ⟨low, high⟩)
  · rw [same]
    exact .inr (.inr rfl)

theorem slugChar_plain {c : Char} (slug : isSlugChar c = true) : isSpace c = false ∧ isControl c = false := by
  have range := isSlugChar_range slug
  constructor
  · simp only [isSpace, Bool.or_eq_false_iff, Bool.and_eq_false_iff, decide_eq_false_iff_not, beq_eq_false_iff_ne]
    omega
  · simp only [isControl, Bool.or_eq_false_iff, decide_eq_false_iff_not, beq_eq_false_iff_ne]
    omega

theorem dropWhile_plain {text : List Char} (plain : ∀ c ∈ text, isSpace c = false) : text.dropWhile isSpace = text := by
  cases text with
  | nil => rfl
  | cons c rest => rw [dropWhile_cons_of_neg (by rw [plain c mem_cons_self]; exact Bool.false_ne_true)]

theorem strip_plain {text : List Char} (plain : ∀ c ∈ text, isSpace c = false) : strip text = text := by
  have reversed : ∀ c ∈ text.reverse, isSpace c = false := by
    intro c member
    exact plain c (mem_reverse.mp member)
  rw [strip, dropWhile_plain plain, dropWhile_plain reversed, reverse_reverse]

/-! Times. -/

/-- A date-time with its offset: the instant in microseconds, and the offset in seconds. -/
structure AwareDatetime where
  instant : Int
  utcoffset : Int
deriving DecidableEq

end Workctx.Domain
