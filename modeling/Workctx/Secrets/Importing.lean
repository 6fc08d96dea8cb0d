import Workctx.Secrets.Dotenv

/-! What an import of a dotenv file gives back of the values that were written into the file. -/

namespace Workctx.Secrets
open Workctx.Text Workctx.Domain Workctx.Services List

/-! Names. -/

structure Solid (c : Char) : Prop where
  space : isSpace c = false
  line : endsLine c = false
  equals : c ≠ '='
  hash : c ≠ '#'
  zero : c ≠ '\x00'
  carriage : c ≠ '\r'
  mark : c ≠ '\uFEFF'

variable {c : Char} {name : List Char} {entries : List (List Char × List Char)}

theorem solid_of_nameSign (sign : isNameSign c = true) : Solid c := by
  have number : c.toNat < 128 ∧ (48 ≤ c.toNat ∧ c.toNat ≤ 57 ∨ 65 ≤ c.toNat) := by
    simp only [isNameSign, isAsciiDigit, Bool.or_eq_true, Bool.and_eq_true, decide_eq_true_eq, beq_iff_eq] at sign
    rcases sign with ((⟨low, high⟩ | ⟨low, high⟩) | ⟨low, high⟩) | rfl
    · exact ⟨lt_of_le_of_lt (Char.le_def.mp high) (by decide), Or.inr (Char.le_def.mp low)⟩
    · exact ⟨lt_of_le_of_lt (Char.le_def.mp high) (by decide), Or.inr (le_trans (by decide) (Char.le_def.mp low))⟩
    · exact ⟨lt_of_le_of_lt (Char.le_def.mp high) (by decide), Or.inl ⟨Char.le_def.mp low, Char.le_def.mp high⟩⟩
    · decide
  constructor
  · simp only [isSpace, Bool.or_eq_false_iff, Bool.and_eq_false_iff, decide_eq_false_iff_not, beq_eq_false_iff_ne]
    omega
  · simp only [endsLine, Bool.or_eq_false_iff, Bool.and_eq_false_iff, decide_eq_false_iff_not, beq_eq_false_iff_ne]
    omega
  all_goals
    intro same
    rw [same] at number
    revert number
    decide

theorem nameSign_of_mem (valid : isDotenvName name = true) (member : c ∈ name) : isNameSign c = true := by
  cases name with
  | nil => cases member
  | cons first rest =>
    rw [isDotenvName, Bool.and_eq_true, Bool.and_eq_true] at valid
    cases mem_cons.mp member with
    | inl same => exact same ▸ valid.1.1
    | inr later => exact all_eq_true.mp valid.2 c later

theorem dotenvName_ne_nil (valid : isDotenvName name = true) : name ≠ [] := by
  intro empty
  rw [empty] at valid
  cases valid

theorem strip_solid {text : List Char} (solid : ∀ c ∈ text, isSpace c = false) : strip text = text := by
  have front : ∀ {some : List Char}, (∀ c ∈ some, isSpace c = false) → some.dropWhile isSpace = some := by
    intro some solid
    cases some with
    | nil => rfl
    | cons c rest => exact dropWhile_cons_of_neg (by rw [solid c mem_cons_self]; decide)
  rw [strip, front solid, front fun c member => solid c (mem_reverse.mp member), reverse_reverse]

/-- A text that starts with a sign keeps it when the blanks around it are taken off. -/
theorem head_strip (solid : isSpace c = false) (rest : List Char) : (strip (c :: rest)).head? = some c := by
  rw [strip, dropWhile_cons_of_neg (by rw [solid]; decide), reverse_cons]
  have kept : ∀ front : List Char, ((front ++ [c]).dropWhile isSpace).getLast? = some c := by
    intro front
    induction front with
    | nil =>
      rw [nil_append, dropWhile_cons_of_neg (by rw [solid]; decide)]
      rfl
    | cons other more ih =>
      rw [cons_append]
      by_cases blank : isSpace other = true
      · rw [dropWhile_cons_of_pos blank, ih]
      · rw [dropWhile_cons_of_neg blank, ← cons_append, getLast?_append]
        rfl
  rw [head?_reverse, kept]

/-! Quoted values. -/

theorem parseValue_singleQuote (rest : List Char) (number : Nat) : parseValue ('\'' :: rest) number = parseSingleQuoted rest number := by
  rw [parseValue, dropWhile_cons_of_neg (by decide)]
  rfl

theorem parseValue_doubleQuote (rest : List Char) (number : Nat) : parseValue ('"' :: rest) number = parseDoubleQuoted number rest := by
  rw [parseValue, dropWhile_cons_of_neg (by decide)]
  rfl

/-- A way to write values in quotes: what it writes is read back, and when the written text is cut at a sign of the value, the front is refused. -/
structure Quoting where
  write : List Char → List Char
  Allowed : List Char → Prop
  keeps : ∀ {value : List Char} {c : Char}, c ∈ write value → c ∈ value ∨ 32 ≤ c.toNat ∧ c.toNat < 127
  reads : ∀ {value : List Char} (number : Nat), Allowed value → parseValue (write value) number = .ok value
  cuts : ∀ (front : List Char) (sign : Char) (rest : List Char) (number : Nat), Allowed (front ++ sign :: rest) → endsLine sign = true →
    ∃ opening more, write (front ++ sign :: rest) = opening ++ sign :: more ∧ parseValue opening number = .error (.malformed number) ∧
      ∀ c ∈ opening, c ∈ front ∨ 32 ≤ c.toNat ∧ c.toNat < 127

def singleQuoted : Quoting where
  write value := '\'' :: (value ++ ['\''])
  Allowed value := '\'' ∉ value
  keeps := by
    intro value c member
    simp only [List.mem_cons, List.mem_append, List.not_mem_nil, or_false] at member
    rcases member with rfl | member | rfl
    · exact Or.inr (by decide)
    · exact Or.inl member
    · exact Or.inr (by decide)
  reads := by
    intro value number free
    have plain : ∀ c ∈ value, (decide (c ≠ '\'')) = true := fun c member => decide_eq_true fun same => free (same ▸ member)
    have behind : (value ++ ['\'']).dropWhile (fun c => decide (c ≠ '\'')) = ['\''] := by
      rw [List.dropWhile_append_of_pos plain]
      rfl
    have upto : (value ++ ['\'']).takeWhile (fun c => decide (c ≠ '\'')) = value := by
      rw [List.takeWhile_append_of_pos plain]
      simp
    rw [parseValue_singleQuote, parseSingleQuoted, behind, upto]
    rfl
  cuts := by
    intro front sign rest number free ends
    refine ⟨'\'' :: front, rest ++ ['\''], by simp, ?_, ?_⟩
    · have plain : ∀ c ∈ front, (decide (c ≠ '\'')) = true := by
        intro c member
        exact decide_eq_true fun same => free (same ▸ List.mem_append_left _ member)
      have behind : front.dropWhile (fun c => decide (c ≠ '\'')) = [] := List.dropWhile_eq_nil_iff.mpr plain
      rw [parseValue_singleQuote, parseSingleQuoted, behind]
    · intro c member
      cases List.mem_cons.mp member with
      | inl same => exact Or.inr (same ▸ by decide)
      | inr inside => exact Or.inl inside

def escapeSign (c : Char) : List Char :=
  if c = '\\' then ['\\', '\\'] else if c = '"' then ['\\', '"'] else if c = '\t' then ['\\', 't'] else [c]

theorem mem_escapeSign {sign : Char} (member : c ∈ escapeSign sign) : c = sign ∨ 32 ≤ c.toNat ∧ c.toNat < 127 := by
  unfold escapeSign at member
  split at member
  · simp only [mem_cons, not_mem_nil, or_false, or_self] at member
    exact Or.inr (member ▸ by decide)
  split at member
  · simp only [mem_cons, not_mem_nil, or_false] at member
    rcases member with rfl | rfl <;> exact Or.inr (by decide)
  split at member
  · simp only [mem_cons, not_mem_nil, or_false] at member
    rcases member with rfl | rfl <;> exact Or.inr (by decide)
  · exact Or.inl (mem_singleton.mp member)

theorem parseDoubleQuoted_escapeSign (number : Nat) (sign : Char) (rest : List Char) :
    parseDoubleQuoted number (escapeSign sign ++ rest) = (parseDoubleQuoted number rest).map (sign :: ·) := by
  unfold escapeSign
  split
  · next same =>
    rw [same]
    rfl
  · next backslash =>
    split
    · next same =>
      rw [same]
      rfl
    · next quote =>
      split
      · next same =>
        rw [same]
        rfl
      · rw [singleton_append, parseDoubleQuoted]
        · exact fun same => absurd same quote
        · exact fun same _ => absurd same backslash
        · exact fun _ _ same => absurd same backslash

theorem parseDoubleQuoted_escaped (number : Nat) (value rest : List Char) :
    parseDoubleQuoted number (value.flatMap escapeSign ++ rest) = (parseDoubleQuoted number rest).map (value ++ ·) := by
  induction value with
  | nil =>
    rw [flatMap_nil, nil_append]
    cases parseDoubleQuoted number rest <;> rfl
  | cons sign value ih =>
    rw [flatMap_cons, append_assoc, parseDoubleQuoted_escapeSign, ih]
    cases parseDoubleQuoted number rest <;> rfl

def doubleQuoted : Quoting where
  write value := '"' :: (value.flatMap escapeSign ++ ['"'])
  Allowed _ := True
  keeps := by
    intro value c member
    simp only [List.mem_cons, List.mem_append, List.mem_flatMap, List.not_mem_nil, or_false] at member
    rcases member with rfl | ⟨sign, inside, escaped⟩ | rfl
    · exact Or.inr (by decide)
    · exact (mem_escapeSign escaped).imp_left fun (same : c = sign) => same ▸ inside
    · exact Or.inr (by decide)
  reads := by
    intro value number _
    have closed : parseDoubleQuoted number ['"'] = .ok [] := rfl
    rw [parseValue_doubleQuote, parseDoubleQuoted_escaped, closed]
    exact congrArg Except.ok (List.append_nil value)
  cuts := by
    intro front sign rest number _ ends
    have itself : escapeSign sign = [sign] := by
      unfold escapeSign
      split
      · next same => exact absurd (same ▸ ends) (by decide)
      split
      · next same => exact absurd (same ▸ ends) (by decide)
      split
      · next same => exact absurd (same ▸ ends) (by decide)
      · rfl
    refine ⟨'"' :: front.flatMap escapeSign, rest.flatMap escapeSign ++ ['"'], ?_, ?_, ?_⟩
    · rw [List.flatMap_append, List.flatMap_cons, itself]
      simp
    · have escaped := parseDoubleQuoted_escaped number front []
      rw [List.append_nil] at escaped
      rw [parseValue_doubleQuote, escaped]
      rfl
    · intro c member
      cases List.mem_cons.mp member with
      | inl same => exact Or.inr (same ▸ by decide)
      | inr inside =>
        obtain ⟨other, held, escaped⟩ := List.mem_flatMap.mp inside
        exact (mem_escapeSign escaped).imp_left fun (same : c = other) => same ▸ held

/-! Written files. -/

/-- A name and a value that can stand in a dotenv file. -/
structure Importable (quoting : Quoting) (entry : List Char × List Char) : Prop where
  name : isDotenvName entry.1 = true
  short : (kebab entry.1).length ≤ 64
  slug : matchesSlug (kebab entry.1) = true
  allowed : quoting.Allowed entry.2
  value : ∀ c ∈ entry.2, c ≠ '\n' ∧ c ≠ '\r' ∧ c ≠ '\x00'

def entryText (quoting : Quoting) (entry : List Char × List Char) : List Char := entry.1 ++ '=' :: quoting.write entry.2

def fileText (quoting : Quoting) (entries : List (List Char × List Char)) : List Char :=
  entries.flatMap fun entry => entryText quoting entry ++ ['\n']

def revealed (entries : List DotenvEntry) : List (List Char × List Char) := entries.map fun entry => (entry.ref.name, entry.value)

def normalized (entries : List (List Char × List Char)) : List (List Char × List Char) := entries.map fun entry => (kebab entry.1, entry.2)

theorem endsLine_visible (visible : 32 ≤ c.toNat ∧ c.toNat < 127) : endsLine c = false := by
  simp only [endsLine, Bool.or_eq_false_iff, Bool.and_eq_false_iff, decide_eq_false_iff_not, beq_eq_false_iff_ne]
  omega

section
variable {quoting : Quoting} {entry : List Char × List Char}

section
variable (importable : Importable quoting entry)
include importable

theorem Importable.solid {c : Char} (member : c ∈ entry.1) : Solid c :=
  solid_of_nameSign (nameSign_of_mem importable.name member)

theorem Importable.normalizeName (number : Nat) :
    normalizeName entry.1 number = .ok ⟨kebab entry.1, importable.short, importable.slug⟩ := by
  rw [Secrets.normalizeName, if_pos importable.name, dif_pos ⟨importable.short, importable.slug⟩]

theorem Importable.plain {raw : List Char} (plain : ∀ c ∈ raw, endsLine c = false) :
    ∀ c ∈ entry.1 ++ '=' :: raw, endsLine c = false := by
  intro c member
  cases mem_append.mp member with
  | inl inside => exact (importable.solid inside).line
  | inr behind =>
    cases mem_cons.mp behind with
    | inl same => exact same ▸ rfl
    | inr inside => exact plain c inside

theorem Importable.isPassedOver (raw : List Char) :
    isPassedOver (entry.1 ++ '=' :: raw) = false := by
  obtain ⟨first, rest, spelled⟩ := exists_cons_of_ne_nil (dotenvName_ne_nil importable.name)
  have solid : Solid first := importable.solid (by rw [spelled]; exact mem_cons_self)
  rw [Secrets.isPassedOver, spelled, cons_append, head_strip solid.space]
  exact beq_eq_false_iff_ne.mpr solid.hash

theorem Importable.parseLine (number : Nat) (seenNames : List (List Char)) {raw : List Char}
    (zero : '\x00' ∉ raw) :
    parseLine number seenNames (entry.1 ++ '=' :: raw) =
      if kebab entry.1 ∈ seenNames then .error (.malformed number)
      else (parseValue raw number).map fun value => ⟨⟨kebab entry.1, importable.short, importable.slug⟩, value⟩ := by
  have before : ∀ c ∈ entry.1, decide (c ≠ '=') = true := fun c member => decide_eq_true (importable.solid member).equals
  have name : (entry.1 ++ '=' :: raw).takeWhile (fun c => decide (c ≠ '=')) = entry.1 := by
    rw [takeWhile_append_of_pos before, takeWhile_cons_of_neg (by decide), append_nil]
  have value : ((entry.1 ++ '=' :: raw).dropWhile fun c => decide (c ≠ '=')).drop 1 = raw := by
    rw [dropWhile_append_of_pos before, dropWhile_cons_of_neg (by decide), drop_one, tail_cons]
  have sound : ¬ ('\x00' ∈ entry.1 ++ '=' :: raw ∨ '=' ∉ entry.1 ++ '=' :: raw) := by
    intro wrong
    cases wrong with
    | inl member =>
      cases mem_append.mp member with
      | inl inside => exact (importable.solid inside).zero rfl
      | inr behind =>
        cases mem_cons.mp behind with
        | inl same => exact absurd same (by decide)
        | inr inside => exact zero inside
    | inr missing => exact missing (mem_append_right _ mem_cons_self)
  rw [Secrets.parseLine, if_neg sound, name, value, strip_solid fun c member => (importable.solid member).space, importable.normalizeName]
  by_cases taken : kebab entry.1 ∈ seenNames
  · rw [if_pos taken]
    exact if_pos taken
  · rw [if_neg taken]
    cases parsed : parseValue raw number with
    | error failed =>
      show (if kebab entry.1 ∈ seenNames then _ else _) = _
      rw [if_neg taken]
      rfl
    | ok found =>
      show (if kebab entry.1 ∈ seenNames then _ else _) = _
      rw [if_neg taken]
      rfl

end

end

theorem first_cut {value : List Char} (cut : ¬ ∀ c ∈ value, endsLine c = false) :
    ∃ front sign behind, value = front ++ sign :: behind ∧ (∀ c ∈ front, endsLine c = false) ∧ endsLine sign = true := by
  have whole := takeWhile_append_dropWhile (p := fun c => !endsLine c) (l := value)
  have clean : ∀ c ∈ value.takeWhile fun c => !endsLine c, endsLine c = false := by
    intro c member
    have smooth := mem_takeWhile_imp member
    rwa [Bool.not_eq_true'] at smooth
  cases rest : value.dropWhile fun c => !endsLine c with
  | nil =>
    rw [rest, append_nil] at whole
    rw [whole] at clean
    exact absurd clean cut
  | cons sign behind =>
    have ends := head?_dropWhile_not (fun c => !endsLine c) value
    rw [rest, head?_cons] at ends
    exact ⟨_, sign, behind, by rw [← rest, whole], clean, by simpa using ends⟩

theorem read_cons (ref : SecretRef) (value : List Char) (later : Except DotenvError (List DotenvEntry)) {rest : List (List Char × List Char)} :
    ((do
      let entry ← Except.map (fun value => (⟨ref, value⟩ : DotenvEntry)) (.ok value : Except DotenvError (List Char))
      let others ← later
      return entry :: others).map revealed) = .ok ((ref.name, value) :: rest) ↔ later.map revealed = .ok rest := by
  cases later with
  | error failed =>
    constructor
    · intro read
      cases read
    · intro read
      cases read
  | ok others =>
    have read : ((do
        let entry ← Except.map (fun value => (⟨ref, value⟩ : DotenvEntry)) (.ok value : Except DotenvError (List Char))
        let others ← (.ok others : Except DotenvError (List DotenvEntry))
        return entry :: others).map revealed) = .ok ((ref.name, value) :: revealed others) := rfl
    rw [read, Except.ok.injEq, List.cons.injEq]
    constructor
    · intro same
      exact congrArg Except.ok same.2
    · intro same
      exact ⟨rfl, Except.ok.inj same⟩

theorem taken_apart {seenNames : List (List Char)} :
    (∀ entry ∈ entries, kebab entry.1 ∉ name :: seenNames) ↔
      (∀ entry ∈ entries, kebab entry.1 ∉ seenNames) ∧ name ∉ entries.map fun entry => kebab entry.1 := by
  constructor
  · intro apart
    refine ⟨fun entry member taken => apart entry member (mem_cons_of_mem name taken), fun member => ?_⟩
    obtain ⟨entry, inside, same⟩ := mem_map.mp member
    exact apart entry inside (same ▸ mem_cons_self)
  · intro facts entry member taken
    cases mem_cons.mp taken with
    | inl same => exact facts.2 (mem_map.mpr ⟨entry, member, same⟩)
    | inr earlier => exact facts.1 entry member earlier

/-- The file is read back exactly where no value holds a sign that ends a line and the names stay apart. -/
theorem parseLines_fileText (quoting : Quoting) (importable : ∀ entry ∈ entries, Importable quoting entry)
    (number : Nat) (seenNames : List (List Char)) :
    (parseLines number seenNames (splitlines (fileText quoting entries))).map revealed = .ok (normalized entries) ↔
      (∀ entry ∈ entries, ∀ c ∈ entry.2, endsLine c = false) ∧ (entries.map fun entry => kebab entry.1).Nodup ∧
        ∀ entry ∈ entries, kebab entry.1 ∉ seenNames := by
  induction entries generalizing number seenNames with
  | nil =>
    constructor
    · intro _
      exact ⟨forall_mem_nil _, nodup_nil, forall_mem_nil _⟩
    · intro _
      rfl
  | cons entry rest ih =>
    have first := importable entry mem_cons_self
    have others := fun other member => importable other (mem_cons_of_mem entry member)
    have text : fileText quoting (entry :: rest) = entryText quoting entry ++ '\n' :: fileText quoting rest := by
      rw [fileText, flatMap_cons, append_assoc, singleton_append, fileText]
    by_cases plain : ∀ c ∈ entry.2, endsLine c = false
    · have written : ∀ c ∈ quoting.write entry.2, endsLine c = false := fun c member =>
        (quoting.keeps member).elim (plain c) endsLine_visible
      have zero : '\x00' ∉ quoting.write entry.2 := fun member =>
        (quoting.keeps member).elim (fun inside => (first.value _ inside).2.2 rfl) fun visible => absurd visible.1 (by decide)
      rw [text, entryText, splitlines_plain (first.plain written) rfl (by decide), parseLines, if_neg (by rw [first.isPassedOver]; decide),
        first.parseLine number seenNames zero, quoting.reads number first.allowed]
      by_cases taken : kebab entry.1 ∈ seenNames
      · rw [if_pos taken]
        constructor
        · intro read
          cases read
        · intro facts
          exact absurd taken (facts.2.2 entry mem_cons_self)
      · rw [if_neg taken]
        have later := ih others (number + 1) (kebab entry.1 :: seenNames)
        rw [taken_apart] at later
        refine Iff.trans ?_ (later.trans ?_)
        · exact read_cons _ _ _
        · rw [map_cons, nodup_cons]
          constructor
          · intro facts
            refine ⟨?_, ⟨facts.2.2.2, facts.2.1⟩, ?_⟩
            · intro other member
              cases mem_cons.mp member with
              | inl same => exact same ▸ plain
              | inr inside => exact facts.1 other inside
            · intro other member
              cases mem_cons.mp member with
              | inl same => exact same ▸ taken
              | inr inside => exact facts.2.2.1 other inside
          · intro facts
            exact ⟨fun other member => facts.1 other (mem_cons_of_mem entry member), facts.2.1.2,
              fun other member => facts.2.2 other (mem_cons_of_mem entry member), facts.2.1.1⟩
    · -- The first sign that ends a line cuts the value, and the quote before it is not closed.
      obtain ⟨front, sign, behind, value, clean, ends⟩ := first_cut plain
      have allowed := first.allowed
      rw [value] at allowed
      obtain ⟨opening, more, written, refused, held⟩ := quoting.cuts front sign behind number allowed ends
      have inside : ∀ c ∈ front, c ∈ entry.2 := fun c member => value ▸ mem_append_left _ member
      have other : sign ≠ '\r' := by
        have member : sign ∈ entry.2 := value ▸ mem_append_right _ mem_cons_self
        exact (first.value sign member).2.1
      have smooth : ∀ c ∈ opening, endsLine c = false := fun c member => (held c member).elim (clean c) endsLine_visible
      have zero : '\x00' ∉ opening := fun member =>
        (held _ member).elim (fun early => (first.value _ (inside _ early)).2.2 rfl) fun visible => absurd visible.1 (by decide)
      have line : fileText quoting (entry :: rest) = (entry.1 ++ '=' :: opening) ++ sign :: (more ++ '\n' :: fileText quoting rest) := by
        rw [text, entryText, value, written]
        simp
      rw [line, splitlines_plain (first.plain smooth) ends other, parseLines, if_neg (by rw [first.isPassedOver]; decide),
        first.parseLine number seenNames zero, refused]
      constructor
      · intro read
        by_cases taken : kebab entry.1 ∈ seenNames
        · rw [if_pos taken] at read
          cases read
        · rw [if_neg taken] at read
          cases read
      · intro facts
        exact absurd (facts.1 entry mem_cons_self) plain

theorem readText_fileText (quoting : Quoting) (importable : ∀ entry ∈ entries, Importable quoting entry) :
    readText (encodeUtf8 (fileText quoting entries)) = some (fileText quoting entries) := by
  have unmarked : (fileText quoting entries).head? ≠ some '\uFEFF' := by
    cases entries with
    | nil => exact nofun
    | cons entry rest =>
      have first := importable entry mem_cons_self
      obtain ⟨c, name, spelled⟩ := exists_cons_of_ne_nil (dotenvName_ne_nil first.name)
      have solid : Solid c := first.solid (by rw [spelled]; exact mem_cons_self)
      rw [fileText, flatMap_cons, entryText, spelled]
      exact fun same => solid.mark (Option.some.inj same)
  have plain : '\r' ∉ fileText quoting entries := by
    intro member
    obtain ⟨entry, inside, held⟩ := mem_flatMap.mp member
    have first := importable entry inside
    cases mem_append.mp held with
    | inr ending => exact absurd (mem_singleton.mp ending) (by decide)
    | inl held =>
      cases mem_append.mp held with
      | inl name => exact (first.solid name).carriage rfl
      | inr behind =>
        cases mem_cons.mp behind with
        | inl equals => exact absurd equals (by decide)
        | inr written =>
          cases quoting.keeps written with
          | inl value => exact (first.value _ value).2.1 rfl
          | inr visible => exact absurd visible.1 (by decide)
  rw [readText, decodeUtf8_encodeUtf8, Option.map_some, if_neg unmarked, universalNewlines_plain plain]

theorem parseLines_once {number : Nat} {seenNames lines : List (List Char)} {entries : List DotenvEntry}
    (accepted : parseLines number seenNames lines = .ok entries) :
    List.Forall₂ (fun line entry => ∃ number seenNames, parseLine number seenNames line = .ok entry)
      (lines.filter fun line => !isPassedOver line) entries := by
  induction lines generalizing number seenNames entries with
  | nil =>
    cases accepted
    exact List.Forall₂.nil
  | cons line rest ih =>
    rw [parseLines] at accepted
    by_cases passed : isPassedOver line = true
    · rw [if_pos passed] at accepted
      rw [filter_cons_of_neg (by rw [passed]; decide)]
      exact ih accepted
    · rw [if_neg passed] at accepted
      rw [filter_cons_of_pos (by rw [Bool.not_eq_true] at passed; rw [passed]; decide)]
      cases parsed : parseLine number seenNames line with
      | error failed =>
        rw [parsed] at accepted
        cases accepted
      | ok entry =>
        rw [parsed] at accepted
        cases later : parseLines (number + 1) (entry.ref.name :: seenNames) rest with
        | error failed =>
          change (do
            let others ← parseLines (number + 1) (entry.ref.name :: seenNames) rest
            return entry :: others) = Except.ok entries at accepted
          rw [later] at accepted
          cases accepted
        | ok others =>
          change (do
            let others ← parseLines (number + 1) (entry.ref.name :: seenNames) rest
            return entry :: others) = Except.ok entries at accepted
          rw [later] at accepted
          cases accepted
          exact List.Forall₂.cons ⟨number, seenNames, parsed⟩ (ih later)

/-- A value whose first sign ends a line for `str.splitlines` -/
def separated : List (List Char × List Char) := [("TOKEN".toList, ['\u2028'])]

theorem separated_importable : ∀ entry ∈ separated, Importable doubleQuoted entry := by
  intro entry member
  rw [mem_singleton.mp member]
  refine ⟨by decide, by decide, by decide, trivial, fun c held => ?_⟩
  rw [mem_singleton.mp held]
  exact ⟨by decide, by decide, by decide⟩

theorem parseDotenv_fileText (quoting : Quoting) (importable : ∀ entry ∈ entries, Importable quoting entry) :
    (parseDotenv (encodeUtf8 (fileText quoting entries))).map revealed = .ok (normalized entries) ↔
      (∀ entry ∈ entries, ∀ c ∈ entry.2, endsLine c = false) ∧ (entries.map fun entry => kebab entry.1).Nodup := by
  have read := parseLines_fileText quoting importable 1 []
  rw [parseDotenv, readText_fileText quoting importable]
  constructor
  · intro same
    have facts := read.mp same
    exact ⟨facts.1, facts.2.1⟩
  · intro facts
    exact read.mpr ⟨facts.1, facts.2, fun _ _ => not_mem_nil⟩

/-- Quoted values are imported as they were written exactly where none of them holds a sign that ends a line for `str.splitlines` and the
names stay apart; and of every file each line that is no comment gives one entry, or the file is refused. -/
theorem dotenv_import_iff (entries : List (List Char × List Char)) (content : Bytes) (imported : List DotenvEntry) :
    ((∀ entry ∈ entries, Importable doubleQuoted entry) →
      ((parseDotenv (encodeUtf8 (fileText doubleQuoted entries))).map revealed = .ok (normalized entries) ↔
        (∀ entry ∈ entries, ∀ c ∈ entry.2, endsLine c = false) ∧ (entries.map fun entry => kebab entry.1).Nodup)) ∧
    ((∀ entry ∈ entries, Importable singleQuoted entry) →
      ((parseDotenv (encodeUtf8 (fileText singleQuoted entries))).map revealed = .ok (normalized entries) ↔
        (∀ entry ∈ entries, ∀ c ∈ entry.2, endsLine c = false) ∧ (entries.map fun entry => kebab entry.1).Nodup)) ∧
    (parseDotenv content = .ok imported →
      ∃ text, readText content = some text ∧
        List.Forall₂ (fun line entry => ∃ number seenNames, parseLine number seenNames line = .ok entry)
          ((splitlines text).filter fun line => !isPassedOver line) imported) := by
  refine ⟨parseDotenv_fileText doubleQuoted, parseDotenv_fileText singleQuoted, ?_⟩
  intro accepted
  unfold parseDotenv at accepted
  split at accepted
  · cases accepted
  · next text found => exact ⟨text, found, parseLines_once accepted⟩

theorem dotenv_import_separated :
    (parseDotenv (encodeUtf8 (fileText doubleQuoted separated))).map revealed = .ok (normalized separated) ↔
      (∀ entry ∈ separated, ∀ c ∈ entry.2, endsLine c = false) ∧ (separated.map fun entry => kebab entry.1).Nodup :=
  (dotenv_import_iff separated [] []).1 separated_importable

/-- The line separator of Unicode in a quoted value: the file is refused. -/
theorem separated_not_imported :
    (∀ entry ∈ separated, Importable doubleQuoted entry) ∧
      (parseDotenv (encodeUtf8 (fileText doubleQuoted separated))).map revealed ≠ .ok (normalized separated) := by
  refine ⟨separated_importable, fun same => ?_⟩
  have cut := ((parseDotenv_fileText doubleQuoted separated_importable).mp same).1
  exact absurd (cut _ (List.mem_singleton_self _) '\u2028' (List.mem_singleton_self _)) (by decide)

end Workctx.Secrets
