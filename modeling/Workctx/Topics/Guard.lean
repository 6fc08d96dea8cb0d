import Workctx.Topics.Integrity
import Workctx.Search.EditDistance
import Workctx.Search.Sorted
import Mathlib.Data.Prod.Lex
import Mathlib.Data.List.Lex
import Mathlib.Data.String.Basic
import Mathlib.Data.Rat.Defs
import Mathlib.Algebra.Order.Ring.Rat
import Mathlib.Data.Nat.Cast.Order.Ring

/-! The guard against two topics for one subject. -/

namespace Workctx.Topics
open Workctx.Domain Workctx.Search List

inductive DuplicateRule where
  | exact
  | tokenSubset
  | editDistance
deriving DecidableEq

/-- `_rule_order` -/
def DuplicateRule.order : DuplicateRule → Nat
  | .exact => 0
  | .tokenSubset => 1
  | .editDistance => 2

structure NormalizedSubject where
  tokens : List String
  compact : String
deriving DecidableEq

structure TopicDuplicateMatch where
  topicSlug : String
  topicName : String
  matchedValue : String
  rule : DuplicateRule
  normalizedDistance : ℚ

def stopwords : List String := ["a", "an", "and", "de", "del", "el", "for", "la", "las", "los", "of", "para", "the", "y"]

def qualifiers : List String :=
  ["demo", "demostracion", "pilot", "piloto", "poc", "prototype", "prototipo", "prueba", "pruebas", "run", "runs", "test", "testing",
    "tests", "version"]

def months : List String :=
  ["apr", "abril", "april", "ago", "agosto", "aug", "august", "dec", "december", "dic", "diciembre", "ene", "enero", "feb", "febrero",
    "february", "jan", "january", "jul", "julio", "july", "jun", "june", "junio", "mar", "march", "marzo", "may", "mayo", "nov",
    "november", "noviembre", "oct", "october", "octubre", "sep", "sept", "september", "septiembre"]

def headed (heads : List String) (least : Nat) (token : String) : Bool :=
  heads.any fun head =>
    let digits := token.toList.drop head.toList.length
    head.toList.isPrefixOf token.toList && decide (least ≤ digits.length) && digits.all isAsciiDigit

/-- `_VERSION` -/
def isVersion (token : String) : Bool := headed ["v", "ver", "version", "versao", "versione"] 1 token

/-- `_QUALIFIED_RUN` -/
def isQualifiedRun (token : String) : Bool :=
  headed ["test", "testing", "tests", "prueba", "pruebas", "poc", "demo", "demostracion", "prototype", "prototipo", "pilot", "piloto"] 0
    token

/-- `token.isdigit()` of a token -/
def isNumber (token : String) : Bool := token.toList.all isAsciiDigit

section
variable (unicode : UnicodeData)

/-- `_TOKEN.findall` of the text without accents -/
def rawTokens (value : String) : List String :=
  let decomposed := unicode.nfkd (unicode.casefold value)
  let asciiText := decomposed.toList.filter fun c => !unicode.nonspacingMark c
  ((asciiText.splitOnP fun c => !isLowerAlnum c).filter fun word => !word.isEmpty).map String.ofList

def normalizeSubject (value : String) : NormalizedSubject :=
  let tokens := rawTokens unicode value
  let dated := tokens.any isNumber
  let kept := sortedSet (tokens.filter fun token => !(stopwords.contains token || qualifiers.contains token ||
    (dated && months.contains token) || isNumber token || isVersion token || isQualifiedRun token))
  ⟨kept, String.join kept⟩

/-- `normalized_edit_distance`, whose ratio is given exactly. -/
def normalizedEditDistance (left right : String) : ℚ :=
  if left = right then 0 else levenshtein left.toList right.toList / (max left.length right.length : Nat)

def editDistanceThreshold : ℚ := 1 / 5

def minEditLength : Nat := 5

/-- `left < right` of sets -/
def isProperSubset (left right : List String) : Bool := left.all right.contains && !right.all left.contains

/-- `_compare` -/
def compareSubjects (left right : NormalizedSubject) : Option DuplicateRule × ℚ :=
  if left.tokens.isEmpty || right.tokens.isEmpty then (none, 1)
  else
    let distance := normalizedEditDistance left.compact right.compact
    if left.compact = right.compact then (some .exact, 0)
    else if isProperSubset left.tokens right.tokens || isProperSubset right.tokens left.tokens then (some .tokenSubset, distance)
    else if minEditLength ≤ min left.compact.length right.compact.length ∧ distance ≤ editDistanceThreshold then
      (some .editDistance, distance)
    else (none, distance)

def uniqueNormalizedValues (values : List String) : List (String × NormalizedSubject) :=
  let normalized := firstBy Prod.snd ((values.map fun value => (value, normalizeSubject unicode value)).filter
    fun entry => !entry.2.tokens.isEmpty)
  sortedBy (fun entry => toLex (entry.2.tokens, toLex (entry.2.compact, entry.1))) normalized

def canonicalTopic (topics : List Topic) (topic : Topic) : Topic :=
  if topic.status = .merged then (get topics (topic.mergedInto.getD "")).getD topic else topic

def scoreKey (score : DuplicateRule × ℚ × String) : Nat ×ₗ ℚ ×ₗ String := toLex (score.1.order, toLex (score.2.1, score.2.2))

def entryScores (candidates existing : List (String × NormalizedSubject)) : List (DuplicateRule × ℚ × String) :=
  candidates.flatMap fun candidate => existing.filterMap fun entry =>
    let compared := compareSubjects candidate.2 entry.2
    compared.1.map fun rule => (rule, compared.2, entry.1)

def entryMatch (candidates : List (String × NormalizedSubject)) (topics : List Topic) (entry : Topic) : Option TopicDuplicateMatch :=
  let canonical := canonicalTopic topics entry
  let existing := uniqueNormalizedValues unicode ([entry.name, entry.slug] ++ entry.aliases ++ [canonical.name, canonical.slug])
  (leastBy scoreKey (entryScores candidates existing)).map fun score => ⟨canonical.slug, canonical.name, score.2.2, score.1, score.2.1⟩

def findDuplicateTopics (candidateName candidateSlug : String) (topics : List Topic) : List TopicDuplicateMatch :=
  let candidates := uniqueNormalizedValues unicode [candidateName, candidateSlug]
  let found := topics.filterMap (entryMatch unicode candidates topics)
  let best := (found.map TopicDuplicateMatch.topicSlug).dedup.filterMap fun slug =>
    leastBy (fun found => scoreKey (found.rule, found.normalizedDistance, found.matchedValue)) (found.filter fun found => found.topicSlug = slug)
  sortedBy (fun found => (toLex (found.rule.order, toLex (found.normalizedDistance, found.topicSlug)) : Nat ×ₗ ℚ ×ₗ String)) best

/-! When the guard fires. -/

def Similar (one two : String) : Prop := (compareSubjects (normalizeSubject unicode one) (normalizeSubject unicode two)).1 ≠ none

end

variable {unicode : UnicodeData}

theorem normalizedEditDistance_comm (left right : String) : normalizedEditDistance left right = normalizedEditDistance right left := by
  unfold normalizedEditDistance
  rw [levenshtein_comm, max_comm]
  simp only [eq_comm]

theorem normalizedEditDistance_eq (left right : String) :
    normalizedEditDistance left right = editDistance left.toList right.toList / (max left.length right.length : Nat) := by
  unfold normalizedEditDistance
  split
  · next same => rw [same, editDistance_eq_zero.mpr rfl, Nat.cast_zero, zero_div]
  · rw [levenshtein_eq_editDistance]

/-- The normalized distance is the edit distance over the longer length: symmetric, between zero and one, and
zero of equal texts alone. -/
theorem normalizedEditDistance_metric (left right : String) :
    normalizedEditDistance left right = editDistance left.toList right.toList / (max left.length right.length : Nat) ∧
    normalizedEditDistance "" "" = 0 ∧
    normalizedEditDistance left right = normalizedEditDistance right left ∧
    0 ≤ normalizedEditDistance left right ∧ normalizedEditDistance left right ≤ 1 ∧
    (normalizedEditDistance left right = 0 ↔ left = right) := by
  have ratio := normalizedEditDistance_eq left right
  have bound : editDistance left.toList right.toList ≤ max left.length right.length := by
    rw [← String.length_toList, ← String.length_toList]
    exact editDistance_le_max _ _
  have below : (editDistance left.toList right.toList : ℚ) ≤ (max left.length right.length : Nat) := by exact_mod_cast bound
  have zero : normalizedEditDistance left right = 0 ↔ left = right := by
    constructor
    · intro none
      rw [ratio, div_eq_zero_iff, Nat.cast_eq_zero, Nat.cast_eq_zero] at none
      -- texts without a character have no distance either
      have free : editDistance left.toList right.toList = 0 := by omega
      exact String.toList_inj.mp (editDistance_eq_zero.mp free)
    · intro same
      rw [ratio, editDistance_eq_zero.mpr (congrArg String.toList same), Nat.cast_zero, zero_div]
  refine ⟨ratio, ?_, normalizedEditDistance_comm left right, ?_, ?_, zero⟩
  · exact if_pos rfl
  · rw [ratio]
    exact div_nonneg (Nat.cast_nonneg _) (Nat.cast_nonneg _)
  · rw [ratio]
    exact div_le_one_of_le₀ below (Nat.cast_nonneg _)

theorem compareSubjects_comm (left right : NormalizedSubject) : compareSubjects left right = compareSubjects right left := by
  unfold compareSubjects
  rw [Bool.or_comm, normalizedEditDistance_comm, min_comm, Bool.or_comm (isProperSubset left.tokens right.tokens)]
  simp only [eq_comm]

/-- The guard does not depend on which of the spellings is the candidate. -/
theorem Similar.symm {one two : String} (similar : Similar unicode one two) : Similar unicode two one := by
  unfold Similar at *
  rw [compareSubjects_comm]
  exact similar

theorem tokens_of_fires {left right : NormalizedSubject} (fires : (compareSubjects left right).1 ≠ none) :
    left.tokens ≠ [] ∧ right.tokens ≠ [] := by
  unfold compareSubjects at fires
  constructor
  · intro empty
    rw [empty] at fires
    exact fires rfl
  · intro empty
    rw [empty, isEmpty_nil, Bool.or_true] at fires
    exact fires rfl

theorem mem_uniqueNormalizedValues {values : List String} {subject : NormalizedSubject} :
    (∃ value, (value, subject) ∈ uniqueNormalizedValues unicode values) ↔
      subject.tokens ≠ [] ∧ ∃ value ∈ values, normalizeSubject unicode value = subject := by
  have subjects : ∀ {entries : List (String × NormalizedSubject)}, (∃ value, (value, subject) ∈ entries) ↔ ∃ entry ∈ entries, entry.2 = subject := by
    intro entries
    constructor
    · rintro ⟨value, member⟩
      exact ⟨_, member, rfl⟩
    · rintro ⟨entry, member, rfl⟩
      exact ⟨entry.1, member⟩
  unfold uniqueNormalizedValues
  simp only [mem_sortedBy]
  rw [subjects, firstBy_keys]
  simp only [mem_filter, mem_map, Bool.not_eq_true', isEmpty_eq_false_iff]
  constructor
  · rintro ⟨_, ⟨⟨value, member, rfl⟩, filled⟩, rfl⟩
    exact ⟨filled, value, member, rfl⟩
  · rintro ⟨filled, value, member, rfl⟩
    exact ⟨_, ⟨⟨value, member, rfl⟩, filled⟩, rfl⟩

theorem entryScores_filled {candidates existing : List (String × NormalizedSubject)} : entryScores candidates existing ≠ [] ↔
    ∃ one two, (∃ value, (value, one) ∈ candidates) ∧ (∃ value, (value, two) ∈ existing) ∧ (compareSubjects one two).1 ≠ none := by
  have filled : ∀ {scores : List (DuplicateRule × ℚ × String)}, scores ≠ [] ↔ ∃ score, score ∈ scores :=
    ⟨exists_mem_of_ne_nil _, fun ⟨_, member⟩ => ne_nil_of_mem member⟩
  unfold entryScores
  rw [filled]
  simp only [mem_flatMap, mem_filterMap, Option.map_eq_some_iff]
  constructor
  · rintro ⟨score, candidate, member, entry, known, rule, fires, _⟩
    refine ⟨candidate.2, entry.2, ⟨candidate.1, member⟩, ⟨entry.1, known⟩, ?_⟩
    rw [fires]
    exact Option.some_ne_none rule
  · rintro ⟨one, two, ⟨value, member⟩, ⟨other, known⟩, fires⟩
    obtain ⟨rule, found⟩ := Option.ne_none_iff_exists'.mp fires
    exact ⟨_, (value, one), member, (other, two), known, rule, found, rfl⟩

theorem entryMatch_isSome {name slug : String} {topics : List Topic} {entry : Topic} (unmerged : entry.status ≠ .merged) :
    (entryMatch unicode (uniqueNormalizedValues unicode [name, slug]) topics entry).isSome = true ↔
      ∃ one ∈ [name, slug], ∃ two ∈ entry.name :: entry.slug :: entry.aliases, Similar unicode one two := by
  have canonical : canonicalTopic topics entry = entry := if_neg unmerged
  unfold entryMatch
  dsimp only
  rw [Option.isSome_map, Option.isSome_iff_ne_none, Ne, leastBy_none, canonical, ← Ne, entryScores_filled]
  simp only [mem_uniqueNormalizedValues]
  constructor
  · rintro ⟨_, _, ⟨_, one, first, rfl⟩, ⟨_, two, second, rfl⟩, fires⟩
    refine ⟨one, first, two, ?_, fires⟩
    simp only [mem_append, mem_cons, not_mem_nil, or_false] at second ⊢
    tauto
  · rintro ⟨one, first, two, second, fires⟩
    obtain ⟨filled, named⟩ := tokens_of_fires fires
    refine ⟨_, _, ⟨filled, one, first, rfl⟩, ⟨named, two, ?_, rfl⟩, fires⟩
    simp only [mem_append, mem_cons, not_mem_nil, or_false] at second ⊢
    tauto

/-- The guard fires for a candidate against one entry where a name or slug of the candidate is similar to a spelling of the entry. -/
theorem findDuplicateTopics_fires {name slug : String} {entry : Topic} (unmerged : entry.status ≠ .merged) :
    findDuplicateTopics unicode name slug [entry] ≠ [] ↔
      ∃ one ∈ [name, slug], ∃ two ∈ entry.name :: entry.slug :: entry.aliases, Similar unicode one two := by
  have fires : (entryMatch unicode (uniqueNormalizedValues unicode [name, slug]) [entry] entry).isSome = true ↔ _ := entryMatch_isSome unmerged
  rw [← fires]
  unfold findDuplicateTopics
  dsimp only
  cases found : entryMatch unicode (uniqueNormalizedValues unicode [name, slug]) [entry] entry with
  | none => simp [found, sortedBy]
  | some duplicate =>
    have single : ∀ {key : TopicDuplicateMatch → Nat ×ₗ ℚ ×ₗ String}, leastBy key [duplicate] = some duplicate := rfl
    simp only [filterMap_cons, filterMap_nil, found, Option.isSome_some, iff_true, map_cons, map_nil]
    rw [(nodup_singleton _).dedup]
    simp only [filterMap_cons, filterMap_nil, filter_cons, filter_nil, decide_true, if_true, single]
    exact ne_nil_of_mem (mem_sortedBy.mpr mem_cons_self)

end Workctx.Topics
