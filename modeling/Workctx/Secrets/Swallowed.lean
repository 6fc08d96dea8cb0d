import Workctx.Secrets.Assignments

/-! What stands in front of a secret: an assignment to another key whose value runs on into the secret
is what the finder reports in its place. -/

namespace Workctx.Secrets
open Workctx.Text Workctx.Domain Workctx.Services List

theorem matchAssignment_within : matchAssignment.Within := by
  intro before text key length found
  obtain ⟨_, assignment, rest, rfl, _, rfl, _⟩ := matchAssignment_some found
  have long := assignment.value_length
  rw [length_append, Assignment.text, length_append]
  omega

/-- What stands in front of an assignment matters as far as it can belong to its key. -/
theorem matchAssignment_before {before : Option Char} {text : List Char} (apart : before.any isKeySign = false) :
    matchAssignment before text = matchAssignment none text := by
  unfold matchAssignment
  rw [apart, Option.any_none]

section
variable {isWord : Char → Bool}

def showsMarker (isWord : Char → Bool) (content : List Char) : Bool :=
  (secretMarkers isWord).any fun marker => !(marker.2.longest.found 0 none content).isEmpty

theorem containsPossibleSecret_iff {content : List Char} :
    containsPossibleSecret isWord content = true ↔
      showsMarker isWord content = true ∨ ∃ key ∈ matchAssignment.found 0 none content, isSecretKey key = true := by
  have someLocated : containsPossibleSecret isWord content = true ↔ ∃ item, item ∈ located isWord content := by
    rw [containsPossibleSecret, possibleSecretFindings, Bool.not_eq_true', isEmpty_eq_false_iff_exists_mem]
    constructor
    · intro ⟨_, member⟩
      obtain ⟨item, inside, _⟩ := mem_map.mp member
      exact ⟨item, mem_mergeSort.mp inside⟩
    · intro ⟨item, member⟩
      exact ⟨_, mem_map_of_mem (mem_mergeSort.mpr member)⟩
  have someMarker : showsMarker isWord content = true ↔
      ∃ marker ∈ secretMarkers isWord, ∃ found, found ∈ marker.2.longest.findFrom 0 0 none content := by
    simp only [showsMarker, any_eq_true, Bool.not_eq_true', ← Matcher.findFrom_found 0, isEmpty_map,
      isEmpty_eq_false_iff_exists_mem]
  have someKey : (∃ key ∈ matchAssignment.found 0 none content, isSecretKey key = true) ↔
      ∃ found ∈ assignments none content, isSecretKey found.2 = true := by
    rw [← Matcher.findFrom_found 0]
    constructor
    · intro ⟨_, member, secretKey⟩
      obtain ⟨found, inside, rfl⟩ := mem_map.mp member
      exact ⟨found, inside, secretKey⟩
    · intro ⟨found, inside, secretKey⟩
      exact ⟨_, mem_map_of_mem inside, secretKey⟩
  rw [someLocated, someMarker, someKey]
  unfold located
  constructor
  · intro ⟨item, member⟩
    rcases mem_append.mp member with marked | assigned
    · obtain ⟨marker, inside, more⟩ := mem_flatMap.mp marked
      obtain ⟨found, here, _⟩ := mem_map.mp more
      exact .inl ⟨marker, inside, found, here⟩
    · obtain ⟨found, here, _⟩ := mem_map.mp assigned
      exact .inr ⟨found, mem_filter.mp here⟩
  · intro shown
    rcases shown with ⟨marker, inside, found, here⟩ | ⟨found, here⟩
    · exact ⟨_, mem_append_left _ (mem_flatMap.mpr ⟨marker, inside, mem_map_of_mem here⟩)⟩
    · exact ⟨_, mem_append_right _ (mem_map_of_mem (mem_filter.mpr here))⟩

/-- A match for another key takes the beginning of a text, and no secret key is found before it or behind it. -/
def Swallows (front rest : List Char) : Prop :=
  ∃ keys key taken, matchAssignment.Covered none front rest keys key taken ∧
    ∀ other ∈ keys ++ key :: matchAssignment.found 0 (lastOr (lastOr none front) (rest.take taken)) (rest.drop taken),
      isSecretKey other = false

theorem shown_behind_iff {front secret key : List Char} {length : Nat} (here : matchAssignment none secret = some (key, length))
    (secretKey : isSecretKey key = true) (before : (lastOr none front).any isKeySign = false) :
    containsPossibleSecret isWord (front ++ secret) = true ↔
      showsMarker isWord (front ++ secret) = true ∨ ¬Swallows front secret := by
  rw [containsPossibleSecret_iff]
  refine or_congr_right ?_
  constructor
  · intro ⟨other, member, secretOther⟩ ⟨keys, swallower, taken, covered, quiet⟩
    rw [covered.found] at member
    rw [quiet other member] at secretOther
    cases secretOther
  · intro free
    rcases Matcher.reaches_or_covered matchAssignment_within none front secret with ⟨keys, reached⟩ | ⟨keys, swallower, taken, covered⟩
    · -- The finder stands in front of the secret.
      have matched : matchAssignment (lastOr none front) secret = some (key, length) := by
        rw [matchAssignment_before before, here]
      refine ⟨key, ?_, secretKey⟩
      rw [reached.found]
      exact mem_append_right _ (Matcher.mem_found_start matchAssignment_within matched)
    · by_contra none
      refine free ⟨keys, swallower, taken, covered, fun other member => ?_⟩
      rw [← covered.found] at member
      exact Bool.not_eq_true _ ▸ fun secretOther => none ⟨other, member, secretOther⟩

/-- A secret behind a text that cannot belong to its key is found, but where the text swallows it and no marker is found. -/
theorem contains_behind_iff {front secret key : List Char} (assignment : (0, key) ∈ assignments none secret)
    (secretKey : isSecretKey key = true) (apart : ∀ c, front.getLast? = some c → isKeySign c = false) :
    containsPossibleSecret isWord (front ++ secret) = true ↔
      showsMarker isWord (front ++ secret) = true ∨ ¬Swallows front secret := by
  obtain ⟨length, here⟩ := Matcher.mem_findFrom_start assignment
  refine shown_behind_iff here secretKey ?_
  unfold lastOr
  rw [Option.or_none]
  cases last : front.getLast? with
  | none => rfl
  | some c => exact apart c last

end

def asciiWord (c : Char) : Bool := isLowerAlnum (lowerAscii c) || c == '_'

def passwordText : List Char := "password=supersecretvalue1".toList

theorem password_behind_note :
    containsPossibleSecret asciiWord ("note ".toList ++ passwordText) = true ↔
      showsMarker asciiWord ("note ".toList ++ passwordText) = true ∨ ¬Swallows "note ".toList passwordText :=
  @contains_behind_iff _ _ _ "password".toList (by decide) (by decide) (by
    intro c last
    obtain rfl : ' ' = c := Option.some.inj last
    rfl)

/-- Another key with a colon in front of a password hides it: the password is the value of that key. -/
theorem note_hides_password :
    (0, "password".toList) ∈ assignments none passwordText ∧ isSecretKey "password".toList = true ∧
      (∀ c, "note: ".toList.getLast? = some c → isKeySign c = false) ∧
      containsPossibleSecret asciiWord ("note: ".toList ++ passwordText) = false := by
  refine ⟨by decide, by decide, ?_, ?_⟩
  · intro c last
    obtain rfl : ' ' = c := Option.some.inj last
    rfl
  · have quiet : ¬(showsMarker asciiWord ("note: ".toList ++ passwordText) = true ∨
        ∃ key ∈ matchAssignment.found 0 none ("note: ".toList ++ passwordText), isSecretKey key = true) := by decide
    exact Bool.not_eq_true _ ▸ fun shown => quiet (containsPossibleSecret_iff.mp shown)

end Workctx.Secrets
