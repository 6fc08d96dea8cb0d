import Workctx.Ingestion.Scanning
import Workctx.Secrets.Swallowed

/-! What the scan of an artifact sees of a match of the whole text: it is reported where a window takes
it in, but where the value of another assignment of the window swallows it. -/

namespace Workctx.Ingestion
open Workctx.Text Workctx.Domain Workctx.Services Workctx.Secrets List

/-! The windows of a content -/

def windows (policy : IngestionPolicy) (content : Bytes) : List (List Char) :=
  windowsFrom policy.scanOverlapChars [] ((readChunks policy.scanChunkBytes content.length content).map latin1)

section
variable {isWord : Char → Bool} {reason : QuarantineReason} {reasons : List QuarantineReason}

theorem mem_addReason {other : QuarantineReason} : reason ∈ addReason other reasons ↔ reason ∈ reasons ∨ reason = other := by
  unfold addReason
  split
  · next known =>
    constructor
    · exact .inl
    · intro member
      rcases member with there | rfl
      · exact there
      · exact contains_iff_mem.mp known
  · rw [mem_append, mem_singleton]

theorem mem_guarded {other : QuarantineReason} {guard : Prop} [Decidable guard]
    (member : reason ∈ if guard then addReason other reasons else reasons) : reason ∈ reasons ∨ reason = other := by
  split at member
  · exact mem_addReason.mp member
  · exact .inl member

theorem mem_searched {other : QuarantineReason} {found : Bool} :
    (reason ∈ if !reasons.contains other && found then addReason other reasons else reasons) ↔
      reason ∈ reasons ∨ (reason = other ∧ found = true) := by
  split
  · next both =>
    rw [mem_addReason, (Bool.and_eq_true_iff.mp both).2]
    simp
  · next neither =>
    constructor
    · exact .inl
    · intro either
      rcases either with there | ⟨rfl, shown⟩
      · exact there
      · rw [shown, Bool.and_true, Bool.not_eq_true', Bool.not_eq_false] at neither
        exact contains_iff_mem.mp neither

theorem mem_scanTextWindow {window : List Char} :
    reason ∈ scanTextWindow isWord window reasons ↔
      reason ∈ reasons ∨ ∃ sight ∈ candidates window, shows isWord reason sight = true := by
  unfold scanTextWindow
  dsimp only
  rw [mem_searched, mem_searched, or_assoc, any_eq_true, any_eq_true]
  refine or_congr_right ?_
  cases reason <;> simp [shows]

theorem mem_scanChunks {policy : IngestionPolicy} {firstChunk : Bool} {tail : List Char} {chunks : List Bytes}
    (other : reason ≠ .executablePayload) :
    reason ∈ scanChunks isWord policy firstChunk tail reasons chunks ↔ reason ∈ reasons ∨
      ∃ window ∈ windowsFrom policy.scanOverlapChars tail (chunks.map latin1), ∃ sight ∈ candidates window,
        shows isWord reason sight = true := by
  induction chunks generalizing firstChunk tail reasons with
  | nil => simp [scanChunks, windowsFrom]
  | cons chunk rest ih =>
    rw [scanChunks, ih, mem_scanTextWindow, map_cons, windowsFrom, or_assoc]
    simp only [mem_cons, exists_eq_or_imp]
    refine or_congr_left ?_
    split
    · rw [mem_addReason]
      simp [other]
    · rfl

theorem mem_reasons {lower : String → String} {hash : Bytes → String} {policy : IngestionPolicy} {path : String}
    {declared : Option String} {content : Bytes} (searched : reason = .possibleSecret ∨ reason = .promptInjection) :
    reason ∈ (scanArtifact isWord lower hash policy path declared content).reasons ↔
      ∃ window ∈ windows policy content, ∃ sight ∈ candidates window, shows isWord reason sight = true := by
  have other : reason ≠ .executablePayload := by rcases searched with rfl | rfl <;> decide
  unfold scanArtifact
  dsimp only
  rw [mem_mergeSort, mem_scanChunks other]
  refine or_iff_right ?_
  -- The guards in front of the loop have other reasons.
  intro guarded
  rcases mem_guarded guarded with supported | rfl
  · rcases mem_guarded supported with executable | rfl
    · split at executable
      · exact other (mem_singleton.mp executable)
      · exact not_mem_nil executable
    · rcases searched with same | same <;> cases same
  · rcases searched with same | same <;> cases same

end

/-! Matches, and what of them a window takes in -/

/-- A match of the whole text with a reason to report: of a marker, or of an assignment to a secret key that the finder comes to. -/
inductive Reported (isWord : Char → Bool) (front part back : List Char) : QuarantineReason → Prop
  | marker {name : String} {pattern : Pattern Char} (listed : (name, pattern) ∈ secretMarkers isWord)
    (matched : part.length ∈ pattern.lengths (lastOr none front) (part ++ back)) : Reported isWord front part back .possibleSecret
  | assignment {keys : List (List Char)} {key : List Char} (reached : matchAssignment.Reaches (part ++ back) none front keys)
    (matched : matchAssignment (lastOr none front) (part ++ back) = some (key, part.length)) (secretKey : isSecretKey key = true) :
    Reported isWord front part back .possibleSecret
  | injection {pattern : Pattern Char} (listed : pattern ∈ promptInjectionMarkers isWord)
    (matched : part.length ∈ pattern.lengths (lastOr none front) (part ++ back)) : Reported isWord front part back .promptInjection

/-- The part of a text is swallowed by an assignment to another key, and the text shows no marker. -/
def Swallowed (isWord : Char → Bool) (reason : QuarantineReason) (cut part behind : List Char) : Prop :=
  reason = .possibleSecret ∧ Swallows cut (part ++ behind) ∧ showsMarker isWord (cut ++ part ++ behind) = false

section
variable {isWord : Char → Bool} {reason : QuarantineReason} {front part back cut behind : List Char}

theorem lastOr_suffix (suffix : cut <:+ front) : cut = [] ∨ lastOr none cut = lastOr none front := by
  obtain ⟨more, rfl⟩ := suffix
  cases cut with
  | nil => exact .inl rfl
  | cons sign rest => exact .inr (by rw [lastOr_append]; unfold lastOr; rw [getLast?_cons, Option.some_or, Option.some_or])

theorem lengths_sight {pattern : Pattern Char} (matched : part.length ∈ pattern.lengths (lastOr none front) (part ++ back))
    (suffix : cut <:+ front) (initial : behind <+: back) : part.length ∈ pattern.lengths (lastOr none cut) (part ++ behind) := by
  have short := Pattern.lengths_cut matched (Nat.le_refl _) initial
  rcases lastOr_suffix suffix with rfl | same
  · exact Pattern.lengths_start short
  · rw [same]
    exact short

theorem matchAssignment_sight {key : List Char} (matched : matchAssignment (lastOr none front) (part ++ back) = some (key, part.length))
    (suffix : cut <:+ front) (initial : behind <+: back) :
    (lastOr none cut).any isKeySign = false ∧ matchAssignment none (part ++ behind) = some (key, part.length) := by
  obtain ⟨apart, assignment, rest, whole, rfl, length, ends⟩ := matchAssignment_some matched
  obtain ⟨rfl, rfl⟩ := append_inj whole length.symm
  constructor
  · rcases lastOr_suffix suffix with rfl | same
    · rfl
    · rw [same]
      exact apart
  · refine matchAssignment_text rfl fun c first => ends c ?_
    obtain ⟨more, rfl⟩ := initial
    cases behind with
    | nil => cases first
    | cons sign rest => exact first

theorem showsMarker_iff {content : List Char} : showsMarker isWord content = true ↔
    ∃ marker ∈ secretMarkers isWord, ∃ front rest, content = front ++ rest ∧
      ∃ length ∈ marker.2.lengths (lastOr none front) rest, 0 < length := by
  unfold showsMarker
  rw [any_eq_true]
  refine exists_congr fun marker => and_congr_right fun _ => ?_
  rw [Bool.not_eq_true', isEmpty_eq_false_iff, Matcher.found_ne_nil_iff Pattern.longest_within]
  simp only [Pattern.longest_isSome]

theorem markers_needSign {marker : String × Pattern Char} (listed : marker ∈ secretMarkers isWord) : marker.2.needsSign = true :=
  all_eq_true.mp (show (secretMarkers isWord).all (fun marker => marker.2.needsSign) = true from rfl) marker listed

theorem injections_needSign {pattern : Pattern Char} (listed : pattern ∈ promptInjectionMarkers isWord) : pattern.needsSign = true :=
  all_eq_true.mp (show (promptInjectionMarkers isWord).all Pattern.needsSign = true from rfl) pattern listed

theorem Reported.signs (found : Reported isWord front part back reason) : part ≠ [] := by
  refine length_pos_iff.mp ?_
  cases found with
  | marker listed matched => exact Pattern.lengths_pos (markers_needSign listed) matched
  | assignment _ matched => exact (matchAssignment_within _ _ _ _ matched).1
  | injection listed matched => exact Pattern.lengths_pos (injections_needSign listed) matched

/-- A text that takes in the match shows its reason, where the match is not swallowed. -/
theorem shows_iff (found : Reported isWord front part back reason) (suffix : cut <:+ front) (initial : behind <+: back) :
    shows isWord reason (cut ++ part ++ behind) = true ↔ ¬Swallowed isWord reason cut part behind := by
  have signs := found.signs
  cases found with
  | marker listed matched =>
    have marked : showsMarker isWord (cut ++ part ++ behind) = true := by
      rw [showsMarker_iff, append_assoc]
      exact ⟨_, listed, cut, part ++ behind, rfl, _, lengths_sight matched suffix initial, length_pos_iff.mpr signs⟩
    refine iff_of_true (containsPossibleSecret_iff.mpr (.inl marked)) fun swallowed => ?_
    rw [swallowed.2.2] at marked
    cases marked
  | assignment reached matched secretKey =>
    obtain ⟨apart, here⟩ := matchAssignment_sight matched suffix initial
    unfold shows Swallowed
    rw [append_assoc, shown_behind_iff here secretKey apart]
    cases marked : showsMarker isWord (cut ++ (part ++ behind)) <;> simp
  | injection listed matched =>
    refine iff_of_true ?_ fun swallowed => by cases swallowed.1
    refine any_eq_true.mpr ⟨_, listed, Pattern.occurs_iff.mpr ⟨cut, part ++ behind, ?_, part.length, ?_⟩⟩
    · rw [append_assoc]
    · exact lengths_sight matched suffix initial

end

/-! What is searched of a text: it as it stands, or without its null characters. -/

/-- A text, or what is left of it without its null characters. -/
def view (stripped : Bool) (text : List Char) : List Char := if stripped then text.filter (· != '\x00') else text

section
variable {stripped : Bool} {text front part back cut behind : List Char}

theorem view_append (one two : List Char) : view stripped (one ++ two) = view stripped one ++ view stripped two := by
  unfold view
  split
  · exact filter_append _ _
  · rfl

theorem view_suffix (suffix : cut <:+ front) : view stripped cut <:+ view stripped front := by
  obtain ⟨more, rfl⟩ := suffix
  rw [view_append]
  exact suffix_append _ _

theorem view_front (initial : behind <+: back) : view stripped behind <+: view stripped back := by
  obtain ⟨more, rfl⟩ := initial
  rw [view_append]
  exact prefix_append _ _

theorem view_mem_candidates (stripped : Bool) (text : List Char) : view stripped text ∈ candidates text := by
  unfold candidates
  cases stripped with
  | false =>
    change text ∈ _
    split <;> exact mem_cons_self
  | true =>
    change text.filter (· != '\x00') ∈ _
    split
    · exact mem_cons_of_mem _ mem_cons_self
    · next none =>
      rw [mem_singleton, filter_eq_self]
      intro c member
      rw [bne_iff_ne]
      intro null
      exact none (contains_iff_mem.mpr (null ▸ member))

end

section
variable {isWord : Char → Bool} {policy : IngestionPolicy} {content : Bytes} {stripped : Bool} {reason : QuarantineReason}
  {front part back : List Char}

def TakesIn (policy : IngestionPolicy) (content : Bytes) (front part back cut behind : List Char) : Prop :=
  cut ++ part ++ behind ∈ windows policy content ∧ cut <:+ front ∧ behind <+: back

theorem takesIn_of_short (whole : latin1 content = front ++ part ++ back) (signs : part ≠ [])
    (short : part.length ≤ policy.scanOverlapChars) :
    ∃ cut behind, TakesIn policy content front part back cut behind := by
  have positive := length_pos_iff.mpr signs
  have chunk : 0 < policy.scanChunkBytes := by
    have bounds := policy.scanChunkBytes_bounds
    omega
  have read : [] ++ ((readChunks policy.scanChunkBytes content.length content).map latin1).flatten = front ++ part ++ back := by
    have same := congrArg latin1 (readChunks_flatten chunk (Nat.le_refl content.length))
    unfold latin1 at same whole ⊢
    rw [nil_append, ← map_flatten, same, whole]
  have covered := windowsFrom_covers read short (by rw [length_nil]; omega)
  rw [lastSigns_nil] at covered
  exact covered

/-- A match is seen in a window that takes it in, and where it is not swallowed. -/
def Seen (isWord : Char → Bool) (policy : IngestionPolicy) (content : Bytes) (stripped : Bool) (reason : QuarantineReason)
    (front part back : List Char) : Prop :=
  ∃ cut behind, TakesIn policy content front part back cut behind ∧
    ¬Swallowed isWord reason (view stripped cut) (view stripped part) (view stripped behind)

/-- A window shows the reason by something else: it does not take in the match. -/
def ShownElsewhere (isWord : Char → Bool) (policy : IngestionPolicy) (content : Bytes) (stripped : Bool) (reason : QuarantineReason)
    (front part back : List Char) : Prop :=
  ∃ window ∈ windows policy content, ∃ sight ∈ candidates window, shows isWord reason sight = true ∧
    ¬∃ cut behind, TakesIn policy content front part back cut behind ∧ sight = view stripped (cut ++ part ++ behind)

/-- The reason of a match of the whole text is reported where a window takes in the match and does not swallow it, or where a window
that does not take it in shows the reason; and a part of the text no longer than the overlap is taken in. -/
theorem scan_reports_iff {lower : String → String} {hash : Bytes → String} {path : String} {declared : Option String}
    (whole : latin1 content = front ++ part ++ back)
    (found : Reported isWord (view stripped front) (view stripped part) (view stripped back) reason) :
    (reason ∈ (scanArtifact isWord lower hash policy path declared content).reasons ↔
      Seen isWord policy content stripped reason front part back ∨
        ShownElsewhere isWord policy content stripped reason front part back) ∧
    (part.length ≤ policy.scanOverlapChars → ∃ cut behind, TakesIn policy content front part back cut behind) := by
  have signs : part ≠ [] := by
    intro none
    rw [none] at found
    cases stripped <;> exact found.signs rfl
  have searched : reason = .possibleSecret ∨ reason = .promptInjection := by
    cases found with
    | injection => exact .inr rfl
    | _ => exact .inl rfl
  have seen : ∀ {cut behind}, TakesIn policy content front part back cut behind →
      (shows isWord reason (view stripped (cut ++ part ++ behind)) = true ↔
        ¬Swallowed isWord reason (view stripped cut) (view stripped part) (view stripped behind)) := by
    intro cut behind taken
    rw [view_append, view_append]
    exact shows_iff found (view_suffix taken.2.1) (view_front taken.2.2)
  refine ⟨?_, takesIn_of_short whole signs⟩
  rw [mem_reasons searched]
  constructor
  · intro ⟨window, inside, sight, member, shown⟩
    by_cases taken : ∃ cut behind, TakesIn policy content front part back cut behind ∧ sight = view stripped (cut ++ part ++ behind)
    · obtain ⟨cut, behind, takes, rfl⟩ := taken
      exact .inl ⟨cut, behind, takes, (seen takes).mp shown⟩
    · exact .inr ⟨window, inside, sight, member, shown, taken⟩
  · intro either
    rcases either with ⟨cut, behind, takes, free⟩ | ⟨window, inside, sight, member, shown, _⟩
    · exact ⟨_, takes.1, _, view_mem_candidates stripped _, (seen takes).mpr free⟩
    · exact ⟨window, inside, sight, member, shown⟩

end

def smallPolicy : IngestionPolicy := ⟨1, 4096, 256, by decide, by decide, by decide⟩

def latin1Bytes (text : List Char) : Bytes := text.map fun c => UInt8.ofNat c.toNat

theorem scan_reports_password :
    (.possibleSecret ∈
        (scanArtifact asciiWord id (fun _ => "") smallPolicy "00_inbox/raw/notes.txt" none (latin1Bytes passwordText)).reasons ↔
      Seen asciiWord smallPolicy (latin1Bytes passwordText) false .possibleSecret [] passwordText [] ∨
        ShownElsewhere asciiWord smallPolicy (latin1Bytes passwordText) false .possibleSecret [] passwordText []) ∧
    (passwordText.length ≤ smallPolicy.scanOverlapChars →
      ∃ cut behind, TakesIn smallPolicy (latin1Bytes passwordText) [] passwordText [] cut behind) :=
  scan_reports_iff (by decide) (@Reported.assignment _ _ _ _ [] "password".toList .here (by decide) (by decide))

/-! A password at the cut of a window -/

def dots : List Char := List.replicate 3839 '.'

def passwordPart : List Char := "my-very-long-password".toList ++ List.replicate 222 ' ' ++ "=abcdefghijkl".toList

/-- Behind the nine the x is no key, and behind the cut it is one. -/
def dottedText : List Char := dots ++ "9x:".toList ++ passwordPart

theorem latin1_latin1Bytes {text : List Char} (small : ∀ c ∈ text, c.toNat < 256) : latin1 (latin1Bytes text) = text := by
  calc latin1 (latin1Bytes text) = text.map fun c => Char.ofNat (UInt8.ofNat c.toNat).toNat := map_map
    _ = text.map id := map_congr_left fun c member => by rw [UInt8.toNat_ofNat_of_lt' (small c member), Char.ofNat_toNat, id]
    _ = text := map_id text

theorem assignment_dot (before : Option Char) (text : List Char) : matchAssignment before ('.' :: text) = none := by
  have noKey : ((if (('.' :: text).take 5).map lowerAscii == environmentPrefix then ('.' :: text).drop 5 else '.' :: text).takeWhile
      isKeySign) = [] := rfl
  unfold matchAssignment
  dsimp only
  rw [noKey, head?_nil, Option.any_none, Bool.not_false, Bool.or_true]
  rfl

theorem marker_dot {marker : String × Pattern Char} (listed : marker ∈ secretMarkers asciiWord) (before : Option Char) (text : List Char) :
    marker.2.longest before ('.' :: text) = none := by
  have nothing : marker.2.lengths none ('.' :: text) = [] := by
    rcases mem_cons.mp listed with rfl | other
    · rfl
    · obtain rfl := mem_singleton.mp other
      rfl
  rw [← Option.not_isSome_iff_eq_none, Pattern.longest_isSome]
  intro ⟨length, member, _⟩
  have start := Pattern.lengths_start member
  rw [nothing] at start
  cases start

theorem lastOr_dots : lastOr none dots = some '.' := by
  rw [lastOr, dots, getLast?_replicate]
  rfl

theorem shows_dots {text : List Char} (assignments : ∀ key ∈ matchAssignment.found 0 (some '.') text, isSecretKey key = false)
    (markers : ∀ marker ∈ secretMarkers asciiWord, marker.2.longest.found 0 (some '.') text = []) :
    containsPossibleSecret asciiWord (dots ++ text) = false := by
  have passed : ∀ {α : Type} {matcher : Matcher Char α}, (∀ before text, matcher before ('.' :: text) = none) →
      matcher.found 0 none (dots ++ text) = matcher.found 0 (some '.') text := by
    intro α matcher nothing
    have reached : matcher.Reaches text none (dots ++ []) [] := .replicate nothing .here
    rw [append_nil] at reached
    rw [reached.found, lastOr_dots, nil_append]
  rw [← Bool.not_eq_true, containsPossibleSecret_iff, passed assignment_dot]
  intro shown
  rcases shown with marked | ⟨key, member, secretKey⟩
  · obtain ⟨marker, listed, shown⟩ := any_eq_true.mp marked
    rw [passed (marker_dot listed), markers marker listed] at shown
    cases shown
  · rw [assignments key member] at secretKey
    cases secretKey

theorem dottedText_small {c : Char} (member : c ∈ dottedText) : c.toNat < 256 := by
  rw [dottedText, append_assoc] at member
  rcases mem_append.mp member with dot | other
  · rw [eq_of_mem_replicate dot]
    decide
  · have small : ("9x:".toList ++ passwordPart).all (fun c => decide (c.toNat < 256)) = true := by decide +kernel
    exact of_decide_eq_true (all_eq_true.mp small c other)

def firstChunk : List Char := dots ++ ("9x:".toList ++ passwordPart.take 254)

theorem firstChunk_length : firstChunk.length = 4096 := by
  have behind : ("9x:".toList ++ passwordPart.take 254).length = 257 := by decide +kernel
  rw [firstChunk, length_append, behind, dots, length_replicate]

theorem passwordPart_split : passwordPart = passwordPart.take 254 ++ "kl".toList := by decide +kernel

theorem dottedText_chunks : dottedText = firstChunk ++ "kl".toList := by
  rw [dottedText, firstChunk, append_assoc, append_assoc, append_assoc, ← passwordPart_split]

theorem firstChunk_last : lastSigns 256 firstChunk = "x:".toList ++ passwordPart.take 254 := by
  have split : firstChunk = (dots ++ ['9']) ++ ("x:".toList ++ passwordPart.take 254) := by
    rw [firstChunk, append_assoc]
    rfl
  have front : (dots ++ ['9']).length = 3840 := by
    rw [length_append, dots, length_replicate]
    rfl
  rw [lastSigns, firstChunk_length, split, show 4096 - 256 = 3840 from rfl, ← front, drop_left]

theorem dottedText_windows : windows smallPolicy (latin1Bytes dottedText) = [firstChunk, "x:".toList ++ passwordPart] := by
  have whole : latin1Bytes dottedText = latin1Bytes firstChunk ++ latin1Bytes "kl".toList := by
    rw [dottedText_chunks, latin1Bytes, map_append]
    rfl
  have first : (latin1Bytes firstChunk).length = 4096 := by
    rw [latin1Bytes, length_map, firstChunk_length]
  have length : (latin1Bytes dottedText).length = 4096 + 1 + 1 := by
    rw [whole, length_append, first]
    rfl
  have chunks : readChunks smallPolicy.scanChunkBytes (latin1Bytes dottedText).length (latin1Bytes dottedText) =
      [latin1Bytes firstChunk, latin1Bytes "kl".toList] := by
    have nonempty : latin1Bytes firstChunk ≠ [] := length_pos_iff.mp (by rw [first]; decide)
    rw [length, whole, show smallPolicy.scanChunkBytes = 4096 from rfl, readChunks_append first nonempty,
      readChunks_last (by decide) (by decide)]
  have text : latin1 (latin1Bytes firstChunk) = firstChunk :=
    latin1_latin1Bytes fun c member => dottedText_small (dottedText_chunks ▸ mem_append_left _ member)
  have ending : latin1 (latin1Bytes "kl".toList) = "kl".toList := by decide
  rw [windows, chunks, map_cons, map_cons, map_nil, text, ending, windowsFrom, windowsFrom, windowsFrom, nil_append,
    show smallPolicy.scanOverlapChars = 256 from rfl, firstChunk_last, append_assoc, ← passwordPart_split]

theorem windows_quiet {window sight : List Char} (inside : window ∈ windows smallPolicy (latin1Bytes dottedText))
    (member : sight ∈ candidates window) : shows asciiWord .possibleSecret sight = false := by
  have noNull : ∀ window ∈ [firstChunk, "x:".toList ++ passwordPart], '\x00' ∉ window := by
    intro window inside null
    rcases mem_cons.mp inside with rfl | other
    · rcases mem_append.mp null with dot | later
      · cases eq_of_mem_replicate dot
      · exact absurd later (by decide +kernel)
    · obtain rfl := mem_singleton.mp other
      exact absurd null (by decide +kernel)
  rw [dottedText_windows] at inside
  rw [candidates, if_neg (by rw [contains_iff_mem]; exact noNull window inside), mem_singleton] at member
  subst member
  rcases mem_cons.mp inside with rfl | other
  · exact shows_dots (by decide +kernel) (by decide +kernel)
  · obtain rfl := mem_singleton.mp other
    rw [shows, ← Bool.not_eq_true, containsPossibleSecret_iff]
    have quiet : ¬(showsMarker asciiWord ("x:".toList ++ passwordPart) = true ∨
      ∃ key ∈ matchAssignment.found 0 none ("x:".toList ++ passwordPart), isSecretKey key = true) := by decide +kernel
    exact quiet

/-- Behind the cut of the second window the long key is the value of another key. -/
theorem scan_misses_password :
    latin1 (latin1Bytes dottedText) = (dots ++ "9x:".toList) ++ passwordPart ++ [] ∧
      Reported asciiWord (dots ++ "9x:".toList) passwordPart [] .possibleSecret ∧
      passwordPart.length ≤ smallPolicy.scanOverlapChars ∧
      shows asciiWord .possibleSecret (latin1 (latin1Bytes dottedText)) = true ∧
      .possibleSecret ∉
        (scanArtifact asciiWord id (fun _ => "") smallPolicy "00_inbox/raw/notes.txt" none (latin1Bytes dottedText)).reasons := by
  have whole : latin1 (latin1Bytes dottedText) = (dots ++ "9x:".toList) ++ passwordPart ++ [] := by
    rw [latin1_latin1Bytes fun _ => dottedText_small, List.append_nil, dottedText]
  have reached : matchAssignment.Reaches (passwordPart ++ []) none (dots ++ "9x:".toList) [] := by
    refine .replicate assignment_dot ?_
    rw [← dots, lastOr_dots, List.append_nil]
    exact .skip (by decide +kernel) (.skip (by decide +kernel) (.skip (by decide +kernel) .here))
  have matched : matchAssignment (lastOr none (dots ++ "9x:".toList)) (passwordPart ++ []) =
      some ("my-very-long-password".toList, passwordPart.length) := by
    rw [lastOr_append, lastOr_dots]
    decide +kernel
  have member := Matcher.mem_found_start matchAssignment_within matched
  refine ⟨whole, .assignment reached matched (by decide), by decide +kernel, ?_, ?_⟩
  · rw [shows, containsPossibleSecret_iff, whole, List.append_assoc, reached.found, List.nil_append]
    exact .inr ⟨"my-very-long-password".toList, member, by decide⟩
  · rw [mem_reasons (.inl rfl)]
    intro ⟨window, inside, sight, member, shown⟩
    rw [windows_quiet inside member] at shown
    cases shown

end Workctx.Ingestion
