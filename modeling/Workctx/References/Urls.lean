import Workctx.References.Texts

/-! The parts of a URL. -/

namespace Workctx.References
open List

structure ParseResult where
  scheme : Text
  netloc : Text
  path : Text
  params : Text
  query : Text
  fragment : Text

/-- What the URLs take from `unicodedata` and `ipaddress`. -/
structure Tables where
  nfkc : Text → Text
  lower : Text → Text
  /-- The host in the brackets of a network location is an address. -/
  bracketed : Text → Bool

def cut (separator : Char) (text : Text) : Text × Text :=
  let front := text.takeWhile fun point => decide (point ≠ .scalar separator)
  (front, (text.drop front.length).drop 1)

def isSchemeChar (c : Char) : Bool := c.isAlphanum || c == '+' || c == '-' || c == '.'

def CodePoint.lowerAscii : CodePoint → CodePoint
  | .scalar c => .scalar c.toLower
  | .surrogate unit => .surrogate unit

def splitScheme (url : Text) : Text × Text :=
  let front := url.takeWhile fun point => decide (point ≠ .scalar ':')
  if front.length < url.length && front.head?.any (CodePoint.is Char.isAlpha) && front.all (CodePoint.is isSchemeChar) then
    (front.map CodePoint.lowerAscii, url.drop (front.length + 1))
  else ([], url)

/-- The checks of `_checknetloc` on what has characters outside ASCII. -/
def checkNetloc (tables : Tables) (netloc : Text) : Bool :=
  netloc.all (CodePoint.is fun c => decide (c.toNat < 128)) ||
    let bare := netloc.filter fun point => !point.is (fun c => ['@', ':', '#', '?'].contains c)
    decide (tables.nfkc bare = bare) || (tables.nfkc bare).all fun point => !point.is (fun c => ['/', '?', '#', '@', ':'].contains c)

def checkBrackets (tables : Tables) (netloc : Text) : Bool :=
  let opened := decide (.scalar '[' ∈ netloc)
  let closed := decide (.scalar ']' ∈ netloc)
  opened == closed && (!opened || tables.bracketed netloc)

def usesParams : List Text :=
  [[], literal "ftp".toList, literal "hdl".toList, literal "prospero".toList, literal "http".toList, literal "imap".toList,
    literal "https".toList, literal "shttp".toList, literal "rtsp".toList, literal "rtsps".toList, literal "rtspu".toList,
    literal "sip".toList, literal "sips".toList, literal "mms".toList, literal "sftp".toList, literal "tel".toList]

/-- `_splitparams`: the parameters are of the last segment. -/
def splitParams (path : Text) : Text × Text :=
  let segment := (path.reverse.takeWhile fun point => decide (point ≠ .scalar '/')).reverse
  let front := path.take (path.length - segment.length)
  let (kept, params) := cut ';' segment
  (front ++ kept, params)

/-- The network location of a URL, which stands behind two slashes, and the rest. -/
def splitNetloc (url : Text) : Text × Text :=
  if (literal ['/', '/']).isPrefixOf url then
    let netloc := (url.drop 2).takeWhile fun point => !point.is (fun c => ['/', '?', '#'].contains c)
    (netloc, url.drop (2 + netloc.length))
  else ([], url)

def urlparse (tables : Tables) (url : Text) : Except ReferenceError ParseResult :=
  let url := url.dropWhile (CodePoint.is fun c => decide (c.toNat ≤ 32))
  let url := url.filter fun point => !point.is (fun c => ['\t', '\r', '\n'].contains c)
  let (scheme, url) := splitScheme url
  let (netloc, url) := splitNetloc url
  let (url, fragment) := cut '#' url
  let (path, query) := cut '?' url
  if !checkBrackets tables netloc || !checkNetloc tables netloc then .error .host
  else if usesParams.contains scheme then .ok ⟨scheme, netloc, (splitParams path).1, (splitParams path).2, query, fragment⟩
  else .ok ⟨scheme, netloc, path, [], query, fragment⟩

/-! The URLs that the references are printed as. -/

theorem takeWhile_stop {α : Type} {test : α → Bool} {front back : List α} (kept : ∀ point ∈ front, test point = true)
    (stops : ∀ point ∈ back.head?, test point = false) : (front ++ back).takeWhile test = front := by
  rw [takeWhile_append_of_pos kept]
  cases back with
  | nil => rw [takeWhile_nil, append_nil]
  | cons point rest => rw [takeWhile_cons_of_neg (by rw [stops point rfl]; decide), append_nil]

theorem apart_of_not_mem {separator : CodePoint} {text : Text} (absent : separator ∉ text) :
    ∀ point ∈ text, decide (point ≠ separator) = true := by
  intro point member
  refine decide_eq_true fun same => absent ?_
  rw [← same]
  exact member

theorem cut_append {separator : Char} {front : Text} (absent : .scalar separator ∉ front) (back : Text) :
    cut separator (front ++ .scalar separator :: back) = (front, back) := by
  unfold cut
  rw [takeWhile_stop (apart_of_not_mem absent) (by simp)]
  dsimp only
  rw [drop_left, drop_one, tail_cons]

theorem cut_absent {separator : Char} {text : Text} (absent : .scalar separator ∉ text) : cut separator text = (text, []) := by
  have whole := @takeWhile_stop _ _ text [] (apart_of_not_mem absent) (by simp)
  rw [append_nil] at whole
  unfold cut
  rw [whole]
  dsimp only
  rw [drop_length, drop_nil]

/-- A scheme of small letters, which has no parameters. -/
structure PlainScheme (scheme : List Char) : Prop where
  filled : scheme ≠ []
  small : ∀ c ∈ scheme, c.isLower = true
  kept : scheme.map Char.toLower = scheme
  plain : literal scheme ∉ usesParams

def isNetlocChar (c : Char) : Bool := decide (32 < c.toNat) && decide (c.toNat < 128) && !(['/', '?', '#', '[', ']'].contains c)

def isPathChar (c : Char) : Bool := decide (32 < c.toNat) && !(['?', '#'].contains c)

def fragmentText (fragment : List Char) : List Char := if fragment = [] then [] else '#' :: fragment

theorem splitScheme_plain {scheme : List Char} (plain : PlainScheme scheme) (rest : Text) :
    splitScheme (literal scheme ++ .scalar ':' :: rest) = (literal scheme, rest) := by
  have absent : CodePoint.scalar ':' ∉ literal scheme := by
    intro member
    exact absurd (plain.small ':' (scalar_mem_literal.mp member)) (by decide)
  have every : (literal scheme).all (CodePoint.is isSchemeChar) = true := by
    rw [all_eq_true]
    intro point member
    obtain ⟨c, inside, rfl⟩ := mem_literal.mp member
    simp [CodePoint.is, isSchemeChar, Char.isAlphanum, isAlpha_of_isLower (plain.small c inside)]
  have first : (literal scheme).head?.any (CodePoint.is Char.isAlpha) = true := by
    cases scheme with
    | nil => exact absurd rfl plain.filled
    | cons c more => simp [literal, CodePoint.is, isAlpha_of_isLower (plain.small c mem_cons_self)]
  have kept : (literal scheme).map CodePoint.lowerAscii = literal scheme := by
    calc
      (literal scheme).map CodePoint.lowerAscii = literal (scheme.map Char.toLower) := by simp [literal, CodePoint.lowerAscii]
      _ = literal scheme := by rw [plain.kept]
  unfold splitScheme
  rw [takeWhile_stop (apart_of_not_mem absent) (by simp)]
  dsimp only
  rw [every, first, kept, if_pos (by simp)]
  simp

theorem checkNetloc_ascii (tables : Tables) {netloc : List Char} (located : ∀ c ∈ netloc, isNetlocChar c = true) :
    checkNetloc tables (literal netloc) = true := by
  have ascii : (literal netloc).all (CodePoint.is fun c => decide (c.toNat < 128)) = true := by
    rw [all_eq_true]
    intro point member
    obtain ⟨c, inside, rfl⟩ := mem_literal.mp member
    have legal := located c inside
    simp only [isNetlocChar, Bool.and_eq_true] at legal
    exact legal.1.2
  unfold checkNetloc
  rw [ascii, Bool.true_or]

theorem checkBrackets_plain (tables : Tables) {netloc : List Char} (located : ∀ c ∈ netloc, isNetlocChar c = true) :
    checkBrackets tables (literal netloc) = true := by
  have opened : CodePoint.scalar '[' ∉ literal netloc := fun member => absurd (located '[' (scalar_mem_literal.mp member)) (by decide)
  have closed : CodePoint.scalar ']' ∉ literal netloc := fun member => absurd (located ']' (scalar_mem_literal.mp member)) (by decide)
  unfold checkBrackets
  dsimp only
  rw [decide_eq_false opened, decide_eq_false closed]
  rfl

theorem stripped_solid {chars : List Char} (solid : ∀ c ∈ chars, 32 < c.toNat) :
    ((literal chars).dropWhile (CodePoint.is fun c => decide (c.toNat ≤ 32))).filter
      (fun point => !point.is (fun c => ['\t', '\r', '\n'].contains c)) = literal chars := by
  have whole : (literal chars).dropWhile (CodePoint.is fun c => decide (c.toNat ≤ 32)) = literal chars := by
    cases chars with
    | nil => rfl
    | cons c rest =>
      have above := solid c mem_cons_self
      refine dropWhile_cons_of_neg ?_
      rw [CodePoint.is, decide_eq_true_eq]
      omega
  rw [whole, filter_eq_self]
  intro point member
  obtain ⟨c, inside, rfl⟩ := mem_literal.mp member
  have above := solid c inside
  rw [Bool.not_eq_true', CodePoint.is, contains_eq_mem, decide_eq_false_iff_not]
  intro removed
  have control : ∀ c ∈ ['\t', '\r', '\n'], c.toNat ≤ 32 := forall_mem_of_all (by decide)
  exact absurd (control c removed) (Nat.not_le.mpr above)

theorem splitNetloc_printed {netloc path : List Char} (located : ∀ c ∈ netloc, isNetlocChar c = true) (rooted : path.head? = some '/')
    (back : Text) : splitNetloc (literal ['/', '/'] ++ (literal netloc ++ (literal path ++ back))) = (literal netloc, literal path ++ back) := by
  have ends : ((literal netloc ++ (literal path ++ back)).takeWhile
      fun point => !point.is (fun c => ['/', '?', '#'].contains c)) = literal netloc := by
    apply takeWhile_stop
    · intro point member
      obtain ⟨c, inside, rfl⟩ := mem_literal.mp member
      have legal := located c inside
      simp only [isNetlocChar, Bool.and_eq_true, Bool.not_eq_true', contains_eq_mem, decide_eq_false_iff_not] at legal
      rw [Bool.not_eq_true', CodePoint.is, contains_eq_mem, decide_eq_false_iff_not]
      have wider : ∀ c ∈ ['/', '?', '#'], c ∈ ['/', '?', '#', '[', ']'] := forall_mem_of_all (by decide)
      exact fun stop => legal.2 (wider c stop)
    · obtain ⟨rest, rfl⟩ := head?_eq_some_iff.mp rooted
      intro point first
      cases first
      decide
  have behind : (literal ['/', '/'] ++ (literal netloc ++ (literal path ++ back))).drop 2 = literal netloc ++ (literal path ++ back) := rfl
  unfold splitNetloc
  rw [if_pos (by simp), behind]
  dsimp only
  rw [ends, ← drop_drop, behind, drop_left]

theorem urlparse_printed (tables : Tables) {scheme netloc path fragment : List Char} (plain : PlainScheme scheme)
    (located : ∀ c ∈ netloc, isNetlocChar c = true) (named : ∀ c ∈ path, isPathChar c = true) (rooted : path.head? = some '/')
    (marked : ∀ c ∈ fragment, 32 < c.toNat) :
    urlparse tables (literal (scheme ++ "://".toList ++ netloc ++ path ++ fragmentText fragment)) =
      .ok ⟨literal scheme, literal netloc, literal path, [], [], literal fragment⟩ := by
  have solid : ∀ c ∈ scheme ++ "://".toList ++ netloc ++ path ++ fragmentText fragment, 32 < c.toNat := by
    intro c member
    simp only [mem_append] at member
    rcases member with (((inside | inside) | inside) | inside) | inside
    · have small := plain.small c inside
      have := isLower_iff.mp small
      omega
    · exact (forall_mem_of_all (by decide) : ∀ c ∈ "://".toList, 32 < c.toNat) c inside
    · have legal := located c inside
      simp only [isNetlocChar, Bool.and_eq_true, decide_eq_true_eq] at legal
      exact legal.1.1
    · have legal := named c inside
      simp only [isPathChar, Bool.and_eq_true, decide_eq_true_eq] at legal
      exact legal.1
    · unfold fragmentText at inside
      split at inside
      · cases inside
      · rcases mem_cons.mp inside with rfl | inside
        · decide
        · exact marked c inside
  have split : literal (scheme ++ "://".toList ++ netloc ++ path ++ fragmentText fragment) =
      literal scheme ++ .scalar ':' :: (literal ['/', '/'] ++ (literal netloc ++ (literal path ++ literal (fragmentText fragment)))) := by
    simp [literal]
  have hash : CodePoint.scalar '#' ∉ literal path := fun member => absurd (named '#' (scalar_mem_literal.mp member)) (by decide)
  have question : CodePoint.scalar '?' ∉ literal path := fun member => absurd (named '?' (scalar_mem_literal.mp member)) (by decide)
  have fragments : cut '#' (literal path ++ literal (fragmentText fragment)) = (literal path, literal fragment) := by
    unfold fragmentText
    split
    · next empty =>
      have none : literal fragment = [] := congrArg literal empty
      rw [none]
      exact (congrArg (cut '#') (append_nil _)).trans (cut_absent hash)
    · exact cut_append hash (literal fragment)
  have parameters : usesParams.contains (literal scheme) = false := by
    rw [contains_eq_mem, decide_eq_false_iff_not]
    exact plain.plain
  unfold urlparse
  dsimp only
  rw [stripped_solid solid, split, splitScheme_plain plain]
  dsimp only
  rw [splitNetloc_printed located rooted, fragments]
  dsimp only
  rw [cut_absent question, checkBrackets_plain tables located, checkNetloc_ascii tables located]
  dsimp only
  rw [parameters]
  rfl

end Workctx.References
