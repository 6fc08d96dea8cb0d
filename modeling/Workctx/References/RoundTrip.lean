import Workctx.References.Models
import Workctx.Json.RoundTrip

/-! What a reference is printed as is parsed as that reference, and the normal form of a reference is its own normal form. -/

namespace Workctx.References
open Workctx.Domain (bind_ok isAsciiDigit isHex64 isLowerAlnum isSlugChar matchesSlug matchesSlug_chars)
open Workctx.Text

section
variable {ε α : Type} {checked : Except ε Unit} {build : checked = .ok () → α}

theorem guarded_ok (passed : checked = .ok ()) : guarded checked build = .ok (build passed) := by
  subst passed
  rfl

theorem exists_of_guarded {value : α} (done : guarded checked build = .ok value) : ∃ passed, build passed = value := by
  cases checked with
  | ok passed => exact ⟨rfl, Except.ok.inj done⟩
  | error error => cases done

end

theorem require_ok {test : Bool} {message : String} : require test message = .ok () ↔ test = true := by
  cases test <;> simp [require]

theorem require_bind_ok {α : Type} {test : Bool} {message : String} {next : Unit → Except ReferenceError α} {value : α} :
    (do
      let middle ← require test message
      next middle) = .ok value ↔ test = true ∧ next () = .ok value := by
  rw [bind_ok]
  constructor
  · rintro ⟨middle, passed, later⟩
    exact ⟨require_ok.mp passed, later⟩
  · rintro ⟨passed, later⟩
    exact ⟨(), require_ok.mpr passed, later⟩

/-! Entities. -/

theorem WorkctxUri.parts (uri : WorkctxUri) : ∃ context type, uri.contextId = literal context ∧ uri.entityType = literal type ∧
    matchesSlug context = true ∧ matchesSlug type = true ∧ uri.entityId ≠ [] := by
  have valid := uri.valid
  unfold checkWorkctxUri at valid
  rw [require_bind_ok, require_bind_ok, require_ok] at valid
  obtain ⟨contexts, types, named⟩ := valid
  obtain ⟨context, own, slug⟩ := exists_of_fullmatch contexts
  obtain ⟨type, kind, shape⟩ := exists_of_fullmatch types
  refine ⟨context, type, own, kind, slug, shape, ?_⟩
  intro empty
  rw [empty] at named
  exact absurd named (by decide)

variable {c : Char} {uri : WorkctxUri} {tables : Tables}

theorem slugChar_quoted (letter : isSlugChar c = true) : isQuoted c = true := by
  have small : c.toNat < 128 := by
    have := Domain.isSlugChar_range letter
    omega
  exact forall_ascii (fun c => isSlugChar c = true → isQuoted c = true) (by decide) small letter

theorem quoted_netloc (quoted : isQuoted c = true) (plain : c ≠ '/') : isNetlocChar c = true :=
  forall_ascii (fun c => isQuoted c = true → c ≠ '/' → isNetlocChar c = true) (by decide) (isQuoted_ascii quoted).2 quoted plain

theorem quoted_path (quoted : isQuoted c = true) : isPathChar c = true :=
  forall_ascii (fun c => isQuoted c = true → isPathChar c = true) (by decide) (isQuoted_ascii quoted).2 quoted

variable {slug : List Char} {text value : Text}

section
variable (shape : matchesSlug slug = true)
include shape

theorem slug_netloc : ∀ c ∈ slug, isNetlocChar c = true := by
  intro c member
  have letter := (matchesSlug_chars shape).1 c member
  refine quoted_netloc (slugChar_quoted letter) fun slash => ?_
  rw [slash] at letter
  exact absurd letter (by decide)

theorem slug_path : ∀ c ∈ slug, isPathChar c = true :=
  fun c member => quoted_path (slugChar_quoted ((matchesSlug_chars shape).1 c member))

theorem slug_filled : slug ≠ [] := by
  obtain ⟨c, member, _⟩ := (matchesSlug_chars shape).2
  exact List.ne_nil_of_mem member

end

theorem plainScheme_workctx : PlainScheme "workctx".toList := ⟨by decide, forall_mem_of_all (by decide), by decide, by decide⟩

theorem plainScheme_repo : PlainScheme "repo".toList := ⟨by decide, forall_mem_of_all (by decide), by decide, by decide⟩

theorem WorkctxUri.str_returns (uri : WorkctxUri) : (∃ text, uri.str = .ok text) ↔ (scalars? uri.entityId).isSome = true := by
  rw [← @quoteWith_returns Domain.quoteByte]
  constructor
  · rintro ⟨text, printed⟩
    obtain ⟨encoded, quoted, _⟩ := bind_ok.mp printed
    exact ⟨encoded, quoted⟩
  · rintro ⟨encoded, quoted⟩
    exact ⟨_, bind_ok.mpr ⟨encoded, quoted, rfl⟩⟩

theorem slash_not_mem_quoted (chars : List Char) : '/' ∉ (encodeUtf8 chars).flatMap Domain.quoteByte := by
  have absent : '/' ∉ Domain.quote (String.ofList chars) := Domain.slash_not_mem_quote
  unfold Domain.quote at absent
  rw [String.toList_ofList] at absent
  exact absent

theorem not_mem_literal {chars : List Char} (absent : c ∉ chars) : CodePoint.scalar c ∉ literal chars :=
  fun member => absent (scalar_mem_literal.mp member)

theorem twoSegments_path {one two : List Char} (plain : '/' ∉ one) (also : '/' ∉ two) (filled : one ≠ []) (named : two ≠ []) :
    twoSegments (literal ('/' :: one ++ '/' :: two)) = some (literal one, literal two) := by
  have segments : literal ('/' :: one ++ '/' :: two) = [CodePoint.scalar '/'].intercalate [[], literal one, literal two] := by
    simp [literal, List.intercalate]
  have clean : ∀ part ∈ [[], literal one, literal two], CodePoint.scalar '/' ∉ part := by
    simp only [List.forall_mem_cons, List.not_mem_nil, not_false_eq_true, true_and, IsEmpty.forall_iff, implies_true, and_true]
    exact ⟨not_mem_literal plain, not_mem_literal also⟩
  unfold twoSegments
  rw [segments, List.splitOn_intercalate _ clean (by simp)]
  simp [literal, filled, named]

theorem WorkctxUri.urlparse_str (tables : Tables) (printed : uri.str = .ok text) :
    ∃ context type chars, uri.contextId = literal context ∧ uri.entityType = literal type ∧ uri.entityId = literal chars ∧
      type ≠ [] ∧ chars ≠ [] ∧ '/' ∉ type ∧ CodePoint.scalar '?' ∉ text ∧ CodePoint.scalar '#' ∉ text ∧
      urlparse tables text = .ok ⟨literal "workctx".toList, literal context,
        literal ('/' :: type ++ '/' :: (encodeUtf8 chars).flatMap Domain.quoteByte), [], [], []⟩ := by
  obtain ⟨context, type, own, kind, slug, shape, named⟩ := uri.parts
  obtain ⟨encoded, quoted, rest⟩ := bind_ok.mp printed
  obtain ⟨chars, same, rfl⟩ := quoteWith_ok.mp quoted
  cases rest
  have filled : chars ≠ [] := fun empty => named (by rw [same, empty]; rfl)
  have whole : literal "workctx://".toList ++ uri.contextId ++ literal ['/'] ++ uri.entityType ++ literal ['/'] ++
      literal ((encodeUtf8 chars).flatMap Domain.quoteByte) = literal ("workctx".toList ++ "://".toList ++ context ++
        ('/' :: type ++ '/' :: (encodeUtf8 chars).flatMap Domain.quoteByte) ++ fragmentText []) := by
    rw [own, kind]
    simp [literal, fragmentText]
  have path : ∀ c ∈ '/' :: type ++ '/' :: (encodeUtf8 chars).flatMap Domain.quoteByte, isPathChar c = true := by
    intro c member
    simp only [List.cons_append, List.mem_cons, List.mem_append] at member
    rcases member with rfl | inside | rfl | inside
    · decide
    · exact slug_path shape c inside
    · decide
    · exact quoted_path (encodes_quoteByte.quoted_flatMap _ c inside)
  have parsed := urlparse_printed tables plainScheme_workctx (slug_netloc slug) path rfl (fun c member => absurd member List.not_mem_nil)
  have apart : ∀ c, isPathChar c = false → c ∉ "workctx".toList ++ "://".toList ++ context ++
      ('/' :: type ++ '/' :: (encodeUtf8 chars).flatMap Domain.quoteByte) ++ fragmentText [] := by
    intro c stop member
    have legal : isPathChar c = true := by
      simp only [List.mem_append] at member
      rcases member with (((inside | inside) | inside) | inside) | inside
      · exact (forall_mem_of_all (by decide) : ∀ c ∈ "workctx".toList, isPathChar c = true) c inside
      · exact (forall_mem_of_all (by decide) : ∀ c ∈ "://".toList, isPathChar c = true) c inside
      · exact slug_path slug c inside
      · exact path c (List.mem_append.mpr inside)
      · cases inside
    rw [legal] at stop
    cases stop
  rw [whole]
  exact ⟨context, type, chars, own, kind, same, slug_filled shape, filled, Domain.slash_not_mem_slug shape,
    not_mem_literal (apart '?' (by decide)), not_mem_literal (apart '#' (by decide)), parsed⟩

theorem WorkctxUri.parse_str (tables : Tables) {uri : WorkctxUri} {text : Text} (printed : uri.str = .ok text) :
    WorkctxUri.parse tables text = .ok uri := by
  obtain ⟨context, type, chars, own, kind, same, typed, filled, plain, question, hash, parsed⟩ := WorkctxUri.urlparse_str tables printed
  have made : WorkctxUri.make (literal context) (literal type) (literal chars) = .ok uri := by
    rw [← own, ← kind, ← same]
    exact guarded_ok uri.valid
  unfold WorkctxUri.parse
  rw [parsed]
  dsimp only [bind, Except.bind]
  rw [twoSegments_path plain (slash_not_mem_quoted chars) typed (encodes_quoteByte.filled filled), require_ok.mpr (by simp),
    require_ok.mpr (by simp [question]), require_ok.mpr (by simp [hash])]
  dsimp only
  rw [require_ok.mpr (encodes_quoteByte.validEscapes _), encodes_quoteByte.unquote]
  exact made

/-- The reference with the parts of a URI whose texts have no surrogates. -/
def WorkctxUri.ofValid (uri : Domain.WorkctxUri) (valid : Domain.validUri uri = true) : WorkctxUri where
  contextId := literal uri.contextId.toList
  entityType := literal uri.entityType.toList
  entityId := literal uri.entityId.toList
  valid := by
    unfold Domain.validUri at valid
    simp only [Bool.and_eq_true, bne_iff_ne, Bool.not_eq_true', List.any_eq_false, Bool.or_eq_true, beq_iff_eq, not_or] at valid
    obtain ⟨⟨⟨⟨⟨slug, shape⟩, filled⟩, dot⟩, dots⟩, plain⟩ := valid
    have differs : ∀ text : String, uri.entityId ≠ text → literal uri.entityId.toList ≠ literal text.toList :=
      fun text other same => other (String.toList_inj.mp (literal_injective same))
    have named := differs "" filled
    have still := differs "." dot
    have up := differs ".." dots
    have segment : CodePoint.scalar '/' ∉ literal uri.entityId.toList := not_mem_literal fun member => (plain '/' member).1 rfl
    have portable : CodePoint.scalar '\\' ∉ literal uri.entityId.toList := not_mem_literal fun member => (plain '\\' member).2 rfl
    unfold checkWorkctxUri
    simp only [require_bind_ok, require_ok, fullmatch_literal, slug, shape, true_and]
    simp only [Bool.not_eq_true', Bool.or_eq_false_iff, List.isEmpty_eq_false_iff, List.contains_eq_mem, decide_eq_false_iff_not, List.mem_cons,
      List.not_mem_nil, or_false, not_or]
    exact ⟨⟨⟨named, still, up⟩, segment⟩, portable⟩

theorem WorkctxUri.str_ofValid (uri : Domain.WorkctxUri) (valid : Domain.validUri uri = true) :
    (WorkctxUri.ofValid uri valid).str = .ok (literal (Domain.uriText uri).toList) := by
  have encoded : quote (literal uri.entityId.toList) = .ok (literal (Domain.quote uri.entityId)) :=
    quoteWith_ok.mpr ⟨uri.entityId.toList, rfl, rfl⟩
  unfold WorkctxUri.str WorkctxUri.ofValid
  dsimp only
  rw [encoded]
  dsimp only [bind, Except.bind]
  unfold Domain.uriText
  simp [String.toList_append, literal]

/-! Normal forms. -/

theorem normalizeWorkctxUri_str (tables : Tables) (printed : uri.str = .ok text)
    (fits : checkEntityId uri = .ok ()) : normalizeWorkctxUri tables text = .ok text := by
  obtain ⟨_, _, _, _, _, _, _, _, _, _, _, parsed⟩ := WorkctxUri.urlparse_str tables printed
  unfold normalizeWorkctxUri
  rw [parsed]
  dsimp only [bind, Except.bind]
  rw [if_pos (by rfl), WorkctxUri.parse_str tables printed]
  dsimp only
  rw [fits]
  exact printed

theorem exists_of_normalizeWorkctxUri (done : normalizeWorkctxUri tables value = .ok text) :
    ∃ uri : WorkctxUri, uri.str = .ok text ∧ checkEntityId uri = .ok () := by
  obtain ⟨parsed, located, rest⟩ := bind_ok.mp done
  split at rest
  · obtain ⟨uri, _, rest⟩ := bind_ok.mp rest
    obtain ⟨_, checked, printed⟩ := bind_ok.mp rest
    exact ⟨uri, printed, checked⟩
  · split at rest
    · next marked =>
      -- A text with parameters or a query is no entity reference.
      obtain ⟨uri, read, _⟩ := bind_ok.mp rest
      unfold WorkctxUri.parse at read
      rw [located] at read
      obtain ⟨_, same, read⟩ := bind_ok.mp read
      cases same
      obtain ⟨_, read⟩ := require_bind_ok.mp read
      obtain ⟨clean, _⟩ := require_bind_ok.mp read
      simp only [Bool.and_eq_true] at clean
      rw [clean.1.1, clean.1.2] at marked
      cases marked
    · obtain ⟨_, rest⟩ := require_bind_ok.mp rest
      obtain ⟨_, rest⟩ := require_bind_ok.mp rest
      obtain ⟨uri, _, rest⟩ := bind_ok.mp rest
      obtain ⟨_, checked, printed⟩ := bind_ok.mp rest
      refine ⟨uri, printed, ?_⟩
      unfold checkEntityId
      rw [checked, ite_self]

theorem normalizeWorkctxUri_idempotent (done : normalizeWorkctxUri tables value = .ok text) :
    normalizeWorkctxUri tables text = .ok text := by
  obtain ⟨uri, printed, fits⟩ := exists_of_normalizeWorkctxUri done
  exact normalizeWorkctxUri_str tables printed fits

/-! Artifacts. -/

theorem ArtifactReference.parse_str (reference : ArtifactReference) : ArtifactReference.parse reference.str = .ok reference := by
  have shape := require_ok.mp reference.valid
  have behind : reference.str.drop artifactPrefix.length = reference.digest := List.drop_left
  have front : artifactPrefix.isPrefixOf reference.str = true := List.isPrefixOf_iff_prefix.mpr (List.prefix_append _ _)
  unfold ArtifactReference.parse
  dsimp only [bind, Except.bind]
  rw [behind, front, require_ok.mpr (by rw [shape]; rfl)]
  exact guarded_ok reference.valid

theorem ArtifactReference.str_of_parse {reference : ArtifactReference} (read : ArtifactReference.parse value = .ok reference) :
    reference.str = value := by
  unfold ArtifactReference.parse at read
  obtain ⟨shape, rest⟩ := require_bind_ok.mp read
  obtain ⟨_, rfl⟩ := exists_of_guarded rest
  rw [Bool.and_eq_true, List.isPrefixOf_iff_prefix] at shape
  exact List.prefix_iff_eq_append.mp shape.1

/-! Lines of a repository. -/

theorem RepoReference.checks (reference : RepoReference) :
    fullmatch matchesRepoId reference.repoId = true ∧ fullmatch matchesCommit reference.commit = true ∧
      validateRepoPath reference.path = .ok () ∧ 1 ≤ reference.startLine ∧ reference.startLine ≤ reference.endLine := by
  have valid := reference.valid
  unfold checkRepoReference at valid
  obtain ⟨ids, valid⟩ := require_bind_ok.mp valid
  obtain ⟨commits, valid⟩ := require_bind_ok.mp valid
  obtain ⟨_, paths, valid⟩ := bind_ok.mp valid
  obtain ⟨first, last⟩ := require_bind_ok.mp valid
  exact ⟨ids, commits, paths, of_decide_eq_true first, of_decide_eq_true (require_ok.mp last)⟩

theorem path_filled {path : Text} (valid : validateRepoPath path = .ok ()) : path ≠ [] := by
  intro empty
  rw [empty] at valid
  cases valid

theorem mem_splitOnP {test : Char → Bool} {text : List Char} (member : c ∈ text) :
    test c = true ∨ ∃ part ∈ text.splitOnP test, c ∈ part := by
  induction text with
  | nil => cases member
  | cons first rest ih =>
    rw [List.splitOnP_cons_eq_if_modifyHead]
    obtain ⟨part, parts, split⟩ := List.exists_cons_of_ne_nil (List.splitOnP_ne_nil test rest)
    rw [split] at ih ⊢
    rcases List.mem_cons.mp member with rfl | inside
    · by_cases separates : test c = true
      · exact .inl separates
      · rw [if_neg separates]
        exact .inr ⟨c :: part, List.mem_cons_self, List.mem_cons_self⟩
    · rcases ih inside with separates | ⟨other, known, within⟩
      · exact .inl separates
      · right
        split
        · exact ⟨other, List.mem_cons_of_mem _ known, within⟩
        · rcases List.mem_cons.mp known with rfl | later
          · exact ⟨first :: other, List.mem_cons_self, List.mem_cons_of_mem _ within⟩
          · exact ⟨other, List.mem_cons_of_mem _ later, within⟩

theorem repoId_netloc {id : List Char} (shape : matchesRepoId id = true) : ∀ c ∈ id, isNetlocChar c = true := by
  intro c member
  unfold matchesRepoId at shape
  rw [List.all_eq_true] at shape
  have marks : ∀ c, ['.', '_', '-'].contains c = true → isNetlocChar c = true := by
    intro c mark
    rw [List.contains_eq_mem, decide_eq_true_eq] at mark
    exact (forall_mem_of_all (by decide) : ∀ c ∈ ['.', '_', '-'], isNetlocChar c = true) c mark
  rcases mem_splitOnP member with separates | ⟨part, known, inside⟩
  · exact marks c separates
  · have letters := shape part known
    rw [Bool.and_eq_true, List.all_eq_true] at letters
    have slug := Domain.slugChar_of_lowerAlnum (letters.2 c inside)
    refine quoted_netloc (slugChar_quoted slug) fun slash => ?_
    rw [slash] at slug
    exact absurd slug (by decide)

theorem commit_chars {commit : List Char} (shape : matchesCommit commit = true) : ∀ c ∈ commit, isNetlocChar c = true ∧ c ≠ '@' := by
  intro c member
  simp only [matchesCommit, Bool.and_eq_true, List.all_eq_true] at shape
  have digit := shape.2 c member
  have small : c.toNat < 128 := by
    simp only [isHexDigit, isAsciiDigit, Bool.or_eq_true, Bool.and_eq_true, decide_eq_true_eq, Char.le_def, UInt32.le_iff_toNat_le] at digit
    have : c.val.toNat = c.toNat := rfl
    simp at digit
    omega
  exact forall_ascii (fun c => isHexDigit c = true → isNetlocChar c = true ∧ c ≠ '@') (by decide) small digit

theorem rsplitAt_append (id : Text) {commit : Text} (plain : CodePoint.scalar '@' ∉ commit) :
    rsplitAt (id ++ .scalar '@' :: commit) = (id, commit) := by
  have reversed : (id ++ .scalar '@' :: commit).reverse.takeWhile (fun point => decide (point ≠ .scalar '@')) = commit.reverse := by
    rw [List.reverse_append, List.reverse_cons, List.append_assoc]
    exact takeWhile_stop (fun point member => apart_of_not_mem plain point (List.mem_reverse.mp member)) (by simp)
  unfold rsplitAt
  rw [reversed, List.reverse_reverse]
  dsimp only
  rw [List.length_append, List.length_cons, Nat.add_sub_assoc (by omega), Nat.add_sub_cancel_left, Nat.add_sub_cancel, List.take_left]

theorem isAsciiDigit_range (digit : isAsciiDigit c = true) : 48 ≤ c.toNat ∧ c.toNat ≤ 57 := by
  simp only [isAsciiDigit, Bool.and_eq_true, decide_eq_true_eq, Char.le_def, UInt32.le_iff_toNat_le] at digit
  exact digit

theorem isLineNumber_digits {digits : List Char} (line : isLineNumber digits = true) : ∀ c ∈ digits, isAsciiDigit c = true := by
  unfold isLineNumber at line
  rw [Bool.and_eq_true, List.all_eq_true] at line
  exact line.2

theorem isLineNumber_toDigits {n : Nat} (positive : 0 < n) : isLineNumber (Nat.toDigits 10 n) = true := by
  have all : ∀ c ∈ Nat.toDigits 10 n, isAsciiDigit c = true := fun c member => Json.isDigit_of_mem_toDigits member
  have head := Json.toDigits_head_ne_zero positive
  cases digits : Nat.toDigits 10 n with
  | nil => exact absurd digits Nat.toDigits_ne_nil
  | cons c more =>
    rw [digits] at all head
    have first := all c List.mem_cons_self
    have small : c.toNat < 128 := by
      have := isAsciiDigit_range first
      omega
    have other : c ≠ '0' := fun same => head (by rw [same]; rfl)
    have leads := forall_ascii (fun c => isAsciiDigit c = true → c ≠ '0' → ('1' ≤ c && c ≤ '9') = true) (by decide) small first other
    unfold isLineNumber
    rw [List.head?_cons, Option.any_some, leads, List.all_eq_true.mpr all]
    rfl

theorem lineFragment_printed {first last : List Char} (one : isLineNumber first = true) (two : isLineNumber last = true) :
    lineFragment (['L'] ++ first ++ ['-', 'L'] ++ last) = some (first, last) := by
  have digits : ∀ {digits : List Char}, isLineNumber digits = true → '-' ∉ 'L' :: digits := by
    intro digits line member
    rcases List.mem_cons.mp member with same | inside
    · cases same
    · exact absurd (isLineNumber_digits line '-' inside) (by decide)
  have parts : ['L'] ++ first ++ ['-', 'L'] ++ last = ['-'].intercalate ['L' :: first, 'L' :: last] := by simp [List.intercalate]
  have clean : ∀ part ∈ ['L' :: first, 'L' :: last], '-' ∉ part := by
    intro part member
    simp only [List.mem_cons, List.not_mem_nil, or_false] at member
    rcases member with rfl | rfl
    · exact digits one
    · exact digits two
  unfold lineFragment
  rw [parts, List.splitOn_intercalate '-' clean (by simp)]
  simp only [one, two, Bool.and_self, if_true]

theorem intText_ok {n : Int} (positive : 0 < n) {digits : List Char} (printed : intText n = .ok digits) :
    isLineNumber digits = true ∧ readInt digits = .ok n := by
  unfold intText at printed
  by_cases beyond : maxStrDigits < (Nat.toDigits 10 n.natAbs).length
  · rw [if_pos beyond] at printed
    cases printed
  · rw [if_neg beyond, if_neg (by omega)] at printed
    cases printed
    refine ⟨isLineNumber_toDigits (by omega), ?_⟩
    unfold readInt
    rw [if_neg beyond, Nat.ofDigitChars_ten_toDigits, Int.natAbs_of_nonneg (by omega)]

theorem intText_returns (n : Int) : (∃ digits, intText n = .ok digits) ↔ (Nat.toDigits 10 n.natAbs).length ≤ maxStrDigits := by
  unfold intText
  by_cases beyond : maxStrDigits < (Nat.toDigits 10 n.natAbs).length
  · simp [beyond]
  · simp [beyond, Nat.not_lt.mp beyond]

/-- A reference to lines is printed unless its path has a lone surrogate or a line has too many digits. -/
theorem RepoReference.str_returns (reference : RepoReference) : (∃ text, reference.str = .ok text) ↔
    (scalars? reference.path).isSome = true ∧ (Nat.toDigits 10 reference.startLine.natAbs).length ≤ maxStrDigits ∧
      (Nat.toDigits 10 reference.endLine.natAbs).length ≤ maxStrDigits := by
  rw [← @quoteWith_returns quotePathByte, ← intText_returns, ← intText_returns]
  constructor
  · rintro ⟨text, printed⟩
    obtain ⟨encoded, quoted, rest⟩ := bind_ok.mp printed
    obtain ⟨first, starts, rest⟩ := bind_ok.mp rest
    obtain ⟨last, ends, _⟩ := bind_ok.mp rest
    exact ⟨⟨encoded, quoted⟩, ⟨first, starts⟩, ⟨last, ends⟩⟩
  · rintro ⟨⟨encoded, quoted⟩, ⟨first, starts⟩, ⟨last, ends⟩⟩
    exact ⟨_, bind_ok.mpr ⟨encoded, quoted, bind_ok.mpr ⟨first, starts, bind_ok.mpr ⟨last, ends, rfl⟩⟩⟩⟩

theorem RepoReference.urlparse_str (tables : Tables) {reference : RepoReference} (printed : reference.str = .ok text) :
    ∃ id commit chars first last, reference.repoId = literal id ∧ reference.commit = literal commit ∧ reference.path = literal chars ∧
      '@' ∉ commit ∧ chars ≠ [] ∧ isLineNumber first = true ∧ isLineNumber last = true ∧ readInt first = .ok reference.startLine ∧
      readInt last = .ok reference.endLine ∧ (literal "repo://".toList).isPrefixOf text = true ∧
      urlparse tables text = .ok ⟨literal "repo".toList, literal id ++ .scalar '@' :: literal commit,
        .scalar '/' :: literal ((encodeUtf8 chars).flatMap quotePathByte), [], [], literal (['L'] ++ first ++ ['-', 'L'] ++ last)⟩ := by
  obtain ⟨ids, commits, paths, positive, ordered⟩ := reference.checks
  obtain ⟨id, own, idShape⟩ := exists_of_fullmatch ids
  obtain ⟨commit, pinned, commitShape⟩ := exists_of_fullmatch commits
  obtain ⟨encoded, quoted, rest⟩ := bind_ok.mp printed
  obtain ⟨chars, same, rfl⟩ := quoteWith_ok.mp quoted
  obtain ⟨first, starts, rest⟩ := bind_ok.mp rest
  obtain ⟨last, ends, rest⟩ := bind_ok.mp rest
  cases rest
  obtain ⟨one, starts⟩ := intText_ok (by omega) starts
  obtain ⟨two, ends⟩ := intText_ok (by omega) ends
  have filled : chars ≠ [] := fun empty => path_filled paths (by rw [same, empty]; rfl)
  have whole : literal "repo://".toList ++ reference.repoId ++ literal ['@'] ++ reference.commit ++ literal ['/'] ++
      literal ((encodeUtf8 chars).flatMap quotePathByte) ++ literal (['#', 'L'] ++ first ++ ['-', 'L'] ++ last) =
      literal ("repo".toList ++ "://".toList ++ (id ++ '@' :: commit) ++ ('/' :: (encodeUtf8 chars).flatMap quotePathByte) ++
        fragmentText (['L'] ++ first ++ ['-', 'L'] ++ last)) := by
    rw [own, pinned]
    simp [literal, fragmentText]
  have netloc : ∀ c ∈ id ++ '@' :: commit, isNetlocChar c = true := by
    intro c member
    simp only [List.mem_append, List.mem_cons] at member
    rcases member with inside | rfl | inside
    · exact repoId_netloc idShape c inside
    · decide
    · exact (commit_chars commitShape c inside).1
  have path : ∀ c ∈ '/' :: (encodeUtf8 chars).flatMap quotePathByte, isPathChar c = true := by
    intro c member
    rcases List.mem_cons.mp member with rfl | inside
    · decide
    · exact quoted_path (encodes_quotePathByte.quoted_flatMap _ c inside)
  have fragment : ∀ c ∈ ['L'] ++ first ++ ['-', 'L'] ++ last, 32 < c.toNat := by
    have digit : ∀ {digits : List Char}, isLineNumber digits = true → ∀ c ∈ digits, 32 < c.toNat := by
      intro digits line c member
      have := isAsciiDigit_range (isLineNumber_digits line c member)
      omega
    intro c member
    simp only [List.mem_append] at member
    rcases member with ((inside | inside) | inside) | inside
    · exact (forall_mem_of_all (by decide) : ∀ c ∈ ['L'], 32 < c.toNat) c inside
    · exact digit one c inside
    · exact (forall_mem_of_all (by decide) : ∀ c ∈ ['-', 'L'], 32 < c.toNat) c inside
    · exact digit two c inside
  have parsed := urlparse_printed tables plainScheme_repo netloc path rfl fragment
  have located : literal (id ++ '@' :: commit) = literal id ++ CodePoint.scalar '@' :: literal commit := by simp [literal]
  rw [located] at parsed
  refine ⟨id, commit, chars, first, last, own, pinned, same, fun member => (commit_chars commitShape '@' member).2 rfl, filled, one, two,
    starts, ends, ?_, ?_⟩
  · simp only [List.append_assoc]
    exact List.isPrefixOf_iff_prefix.mpr (List.prefix_append _ _)
  · rw [whole]
    exact parsed

theorem RepoReference.parse_str (tables : Tables) {reference : RepoReference} {text : Text} (printed : reference.str = .ok text) :
    RepoReference.parse tables text = .ok reference := by
  obtain ⟨id, commit, chars, first, last, own, pinned, same, plain, filled, one, two, starts, ends, front, parsed⟩ :=
    RepoReference.urlparse_str tables printed
  have made : guarded (checkRepoReference (literal id) (literal commit) (literal chars) reference.startLine reference.endLine)
      (RepoReference.mk (literal id) (literal commit) (literal chars) reference.startLine reference.endLine) = .ok reference := by
    have valid := reference.valid
    cases reference
    dsimp only at own pinned same
    subst own pinned same
    exact guarded_ok valid
  have relative : literal ((encodeUtf8 chars).flatMap quotePathByte) ≠ [] :=
    fun empty => encodes_quotePathByte.filled filled (List.map_eq_nil_iff.mp empty)
  unfold RepoReference.parse
  rw [front, parsed]
  dsimp only [bind, Except.bind]
  rw [require_ok.mpr rfl, require_ok.mpr (by simp), require_ok.mpr (by simp), rsplitAt_append (literal id) (not_mem_literal plain)]
  dsimp only
  rw [scalars?_literal, Option.bind_some, lineFragment_printed one two]
  dsimp only
  rw [require_ok.mpr (by simp [literal] at relative ⊢; exact relative), List.drop_one, List.tail_cons,
    require_ok.mpr (encodes_quotePathByte.validEscapes _), encodes_quotePathByte.unquote]
  dsimp only
  rw [starts, ends]
  dsimp only
  rw [made]
  dsimp only
  rw [printed]
  dsimp only
  rw [require_ok.mpr (by simp)]

theorem RepoReference.str_of_parse {reference : RepoReference}
    (read : RepoReference.parse tables value = .ok reference) : reference.str = .ok value := by
  unfold RepoReference.parse at read
  obtain ⟨_, rest⟩ := require_bind_ok.mp read
  obtain ⟨parsed, _, rest⟩ := bind_ok.mp rest
  obtain ⟨_, rest⟩ := require_bind_ok.mp rest
  obtain ⟨_, rest⟩ := require_bind_ok.mp rest
  cases lines : (scalars? parsed.fragment).bind lineFragment with
  | none =>
    rw [lines] at rest
    cases rest
  | some digits =>
    rw [lines] at rest
    obtain ⟨_, rest⟩ := require_bind_ok.mp rest
    obtain ⟨_, rest⟩ := require_bind_ok.mp rest
    obtain ⟨path, _, rest⟩ := bind_ok.mp rest
    obtain ⟨startLine, _, rest⟩ := bind_ok.mp rest
    obtain ⟨endLine, _, rest⟩ := bind_ok.mp rest
    obtain ⟨made, _, rest⟩ := bind_ok.mp rest
    obtain ⟨text, printed, rest⟩ := bind_ok.mp rest
    obtain ⟨same, rest⟩ := require_bind_ok.mp rest
    cases rest
    rw [← of_decide_eq_true same]
    exact printed

/-! Durable references. -/

theorem validateWorkctxEntityUri_str
    (valid : validateWorkctxEntityUri tables value = .ok uri) : uri.str = .ok value := by
  obtain ⟨read, _, rest⟩ := bind_ok.mp valid
  obtain ⟨_, _, rest⟩ := bind_ok.mp rest
  obtain ⟨text, printed, rest⟩ := bind_ok.mp rest
  obtain ⟨same, rest⟩ := require_bind_ok.mp rest
  cases rest
  rw [← of_decide_eq_true same]
  exact printed

theorem DurableReference.str_of_parse {reference : DurableReference}
    (read : parseDurableReference tables value = .ok reference) : reference.str = .ok value := by
  obtain ⟨_, rest⟩ := require_bind_ok.mp read
  obtain ⟨_, rest⟩ := require_bind_ok.mp rest
  obtain ⟨_, rest⟩ := require_bind_ok.mp rest
  obtain ⟨parsed, _, rest⟩ := bind_ok.mp rest
  obtain ⟨_, rest⟩ := require_bind_ok.mp rest
  split at rest
  · obtain ⟨uri, valid, rest⟩ := bind_ok.mp rest
    cases rest
    exact validateWorkctxEntityUri_str valid
  · split at rest
    · obtain ⟨artifact, valid, rest⟩ := bind_ok.mp rest
      cases rest
      exact congrArg Except.ok (ArtifactReference.str_of_parse valid)
    · split at rest
      · obtain ⟨repo, valid, rest⟩ := bind_ok.mp rest
        cases rest
        exact RepoReference.str_of_parse valid
      · obtain ⟨_, rest⟩ := require_bind_ok.mp rest
        cases rest
        rfl

theorem validateDurableReference_keeps (done : validateDurableReference tables value = .ok text) :
    text = value := by
  obtain ⟨reference, read, printed⟩ := bind_ok.mp done
  exact Except.ok.inj (printed.symm.trans (DurableReference.str_of_parse read))

/-- Lowercase words are kept by `str.lower`. -/
def Tables.KeepsLower (tables : Tables) : Prop :=
  ∀ word : List Char, (∀ c ∈ word, c.isLower = true) → tables.lower (literal word) = literal word

/-- The front of a reference, which is not one of a machine path. -/
structure Fronted (scheme : List Char) (text : Text) : Prop where
  filled : text.isEmpty = false
  portable : isAbsoluteMachinePath text = false
  authority : beforeAuthority text = some (literal scheme)

theorem fronted_workctx (rest : Text) : Fronted "workctx".toList (literal "workctx://".toList ++ rest) := ⟨rfl, rfl, rfl⟩

theorem fronted_artifact (rest : Text) : Fronted "artifact".toList (literal "artifact://".toList ++ rest) := ⟨rfl, rfl, rfl⟩

theorem fronted_repo (rest : Text) : Fronted "repo".toList (literal "repo://".toList ++ rest) := ⟨rfl, rfl, rfl⟩

theorem parseDurableReference_fronted (lawful : tables.KeepsLower) {scheme : List Char} {parsed : ParseResult}
    (small : ∀ c ∈ scheme, c.isLower = true) (fronted : Fronted scheme text) (read : urlparse tables text = .ok parsed) :
    parseDurableReference tables text = (do
      let scheme := parsed.scheme.map CodePoint.lowerAscii
      require (decide (scheme ≠ literal "file".toList)) "file:// URIs are machine-specific and cannot be durable references"
      if scheme = literal "workctx".toList then do
        let uri ← validateWorkctxEntityUri tables text
        .ok (.workctx uri)
      else if scheme = literal "artifact".toList then do
        let reference ← ArtifactReference.parse text
        .ok (.artifact reference)
      else if scheme = literal "repo".toList then do
        let reference ← RepoReference.parse tables text
        .ok (.repo reference)
      else do
        require (isGenericUri text) "Durable reference must use a '<scheme>://<target>' URI"
        .ok (.external text)) := by
  unfold parseDurableReference
  rw [fronted.filled, fronted.portable, fronted.authority, read]
  dsimp only
  rw [lawful scheme small]
  simp only [decide_true, Bool.true_or, Bool.not_false]
  rfl

theorem ArtifactReference.urlparse_str (tables : Tables) (reference : ArtifactReference) : ∃ path,
    urlparse tables reference.str = .ok ⟨literal "artifact".toList, literal "sha256".toList, path, [], [], []⟩ := by
  obtain ⟨digest, same, hex⟩ := exists_of_fullmatch (require_ok.mp reference.valid)
  have whole : reference.str = literal ("artifact".toList ++ "://".toList ++ "sha256".toList ++ ('/' :: digest) ++ fragmentText []) := by
    unfold ArtifactReference.str artifactPrefix
    rw [same]
    simp [literal, fragmentText]
  have path : ∀ c ∈ '/' :: digest, isPathChar c = true := by
    intro c member
    rcases List.mem_cons.mp member with rfl | inside
    · decide
    · have lower := List.all_eq_true.mp ((Bool.and_eq_true _ _).mp hex).2 c inside
      have small : c.toNat < 128 := by
        simp only [Domain.isLowerHex, Bool.or_eq_true, Bool.and_eq_true, decide_eq_true_eq, Char.le_def, UInt32.le_iff_toNat_le] at lower
        have : c.val.toNat = c.toNat := rfl
        simp at lower
        omega
      exact forall_ascii (fun c => Domain.isLowerHex c = true → isPathChar c = true) (by decide) small lower
  rw [whole]
  exact ⟨_, urlparse_printed tables ⟨by decide, forall_mem_of_all (by decide), by decide, by decide⟩ (forall_mem_of_all (by decide)) path rfl (fun c member => absurd member List.not_mem_nil)⟩

theorem DurableReference.parse_str {tables : Tables} (lawful : tables.KeepsLower) {reference : DurableReference} {text : Text}
    (printed : reference.str = .ok text) (known : ∀ uri, reference = .workctx uri → checkEntityType uri.entityType = .ok ())
    (inner : ∀ value, reference ≠ .external value) : parseDurableReference tables text = .ok reference := by
  cases reference with
  | workctx uri =>
    obtain ⟨_, _, _, _, _, _, _, _, _, _, _, read⟩ := WorkctxUri.urlparse_str tables printed
    have valid : validateWorkctxEntityUri tables text = .ok uri := by
      unfold validateWorkctxEntityUri
      rw [WorkctxUri.parse_str tables printed]
      dsimp only [bind, Except.bind]
      rw [known uri rfl]
      dsimp only
      rw [show uri.str = .ok text from printed]
      dsimp only
      rw [require_ok.mpr (decide_eq_true rfl)]
    obtain ⟨encoded, quoted, rest⟩ := bind_ok.mp printed
    have fronted : Fronted "workctx".toList text := by
      rw [← Except.ok.inj rest, List.append_assoc, List.append_assoc, List.append_assoc, List.append_assoc]
      exact fronted_workctx _
    rw [parseDurableReference_fronted lawful (forall_mem_of_all (by decide)) fronted read, valid]
    rfl
  | artifact artifact =>
    cases printed
    obtain ⟨path, read⟩ := artifact.urlparse_str tables
    have fronted : Fronted "artifact".toList artifact.str := fronted_artifact (literal "sha256/".toList ++ artifact.digest)
    rw [parseDurableReference_fronted lawful (forall_mem_of_all (by decide)) fronted read, ArtifactReference.parse_str]
    rfl
  | repo repo =>
    obtain ⟨_, _, _, _, _, _, _, _, _, _, _, _, _, _, front, read⟩ := RepoReference.urlparse_str tables printed
    have fronted : Fronted "repo".toList text := by
      obtain ⟨rest, rfl⟩ := List.isPrefixOf_iff_prefix.mp front
      exact fronted_repo rest
    rw [parseDurableReference_fronted lawful (forall_mem_of_all (by decide)) fronted read, RepoReference.parse_str tables printed]
    rfl
  | external value => exact absurd rfl (inner value)

/-- The references are a code: what one is printed as is parsed as that reference, and normal forms stay. An entity reference
with a lone surrogate in its id is not printed, nor are lines with a lone surrogate in their path or too many digits. -/
theorem references_round_trip (tables : Tables) :
    (∀ uri : WorkctxUri, ((∃ text, uri.str = .ok text) ↔ (scalars? uri.entityId).isSome = true) ∧
      ∀ text, uri.str = .ok text → WorkctxUri.parse tables text = .ok uri) ∧
    (∀ reference : ArtifactReference, ArtifactReference.parse reference.str = .ok reference) ∧
    (∀ reference : RepoReference, ((∃ text, reference.str = .ok text) ↔ (scalars? reference.path).isSome = true ∧
        (Nat.toDigits 10 reference.startLine.natAbs).length ≤ maxStrDigits ∧
        (Nat.toDigits 10 reference.endLine.natAbs).length ≤ maxStrDigits) ∧
      ∀ text, reference.str = .ok text → RepoReference.parse tables text = .ok reference) ∧
    (∀ value uri text, WorkctxUri.parse tables value = .ok uri → uri.str = .ok text → WorkctxUri.parse tables text = .ok uri) ∧
    (∀ value reference, ArtifactReference.parse value = .ok reference → reference.str = value) ∧
    (∀ value reference, RepoReference.parse tables value = .ok reference → reference.str = .ok value) ∧
    (∀ value text, validateDurableReference tables value = .ok text → validateDurableReference tables text = .ok text) ∧
    (∀ value text, normalizeWorkctxUri tables value = .ok text → normalizeWorkctxUri tables text = .ok text) := by
  refine ⟨fun uri => ⟨uri.str_returns, fun _ => WorkctxUri.parse_str tables⟩, ArtifactReference.parse_str,
    fun reference => ⟨reference.str_returns, fun _ => RepoReference.parse_str tables⟩, fun _ _ _ _ => WorkctxUri.parse_str tables,
    fun _ _ => ArtifactReference.str_of_parse, fun _ _ => RepoReference.str_of_parse, ?_, fun _ _ => normalizeWorkctxUri_idempotent⟩
  intro value text done
  obtain rfl := validateDurableReference_keeps done
  exact done

/-- An entity id that is a lone surrogate is accepted and cannot be printed. -/
theorem surrogate_unprinted : ¬∀ (tables : Tables) (uri : WorkctxUri), ∃ text, uri.str = .ok text ∧ WorkctxUri.parse tables text = .ok uri := by
  intro every
  obtain ⟨text, printed, _⟩ := every ⟨id, id, fun _ => false⟩
    ⟨literal "acme".toList, literal "task".toList, [.surrogate 0], by decide⟩
  cases printed

end Workctx.References
