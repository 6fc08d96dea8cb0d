import Workctx.Domain.Checks

/-! The registry of topics: spellings, the entry and the registry with their validators, and the
resolution of a value. -/

namespace Workctx.Topics
open Workctx.Domain

/-- What the program takes from the Unicode database. Slugs are their own case folding and
decomposition. -/
structure UnicodeData where
  casefold : String → String
  nfkd : String → String
  nonspacingMark : Char → Bool
  casefold_slug : ∀ text : String, (∀ c ∈ text.toList, isSlugChar c = true) → casefold text = text
  nfkd_slug : ∀ text : String, (∀ c ∈ text.toList, isSlugChar c = true) → nfkd text = text
  mark_slug : ∀ c, isSlugChar c = true → nonspacingMark c = false

/-- Lower case ASCII text is as the real database leaves it. -/
def sampleUnicode : UnicodeData where
  casefold := id
  nfkd := id
  nonspacingMark _ := false
  casefold_slug _ _ := rfl
  nfkd_slug _ _ := rfl
  mark_slug _ _ := rfl

inductive TopicStatus where
  | active
  | merged
  | archived
deriving DecidableEq

structure TopicDistinction where
  slug : String
  reason : String
deriving DecidableEq

structure Topic where
  slug : String
  name : String
  scope : String
  aliases : List String
  status : TopicStatus
  mergedInto : Option String
  createdAt : AwareDatetime
  distinctFrom : List TopicDistinction
deriving DecidableEq

/-- `TOPIC_SLUG_PATTERN` with its length bounds. -/
def isTopicSlug (text : String) : Bool := matchesSlug text.toList && lengthBetween 1 100 text

def singleLine (value label : String) : Except String Unit := do
  check (value.toList == strip value.toList && !value.toList.any fun c => c == '\r' || c == '\n')
    (label ++ " must be trimmed single-line text")
  check (!value.toList.any isControl) (label ++ " must be printable single-line text")

section
variable (unicode : UnicodeData)

def topicLookupKey (value : String) : String :=
  let decomposed := unicode.nfkd (unicode.casefold value)
  let withoutMarks := decomposed.toList.filter fun c => !unicode.nonspacingMark c
  String.ofList (withoutMarks.filter isLowerAlnum)

/-! The entry. -/

def TopicDistinction.modelValidate (note : TopicDistinction) : Except String Unit := do
  constrain (isTopicSlug note.slug) "slug"
  constrain (lengthBetween 1 1000 note.reason) "reason"
  singleLine note.reason "distinct topic reason"

def requireValidAliases (values : List String) : Except String Unit := do
  checkEach (fun value => do
    singleLine value "topic alias"
    check (value != "") "topic aliases must not be empty") values
  let normalized := values.map (topicLookupKey unicode)
  check (!normalized.any (· == "")) "topic aliases must contain letters or numbers"
  check (decide normalized.Nodup) "topic aliases must be unique after normalization"

def requireLifecycleShape (topic : Topic) : Except String Unit := do
  check (topic.status != .merged || topic.mergedInto.isSome) "merged topics require merged_into"
  check (topic.status != .merged || topic.mergedInto != some topic.slug) "a topic cannot merge into itself"
  check (topic.status == .merged || topic.mergedInto.isNone) "only merged topics may declare merged_into"
  check (!topic.distinctFrom.any fun note => note.slug == topic.slug) "a topic cannot be distinct from itself"

def Topic.modelValidate (topic : Topic) : Except String Unit := do
  constrain (isTopicSlug topic.slug) "slug"
  constrain (lengthBetween 1 200 topic.name) "name"
  singleLine topic.name "topic text"
  constrain (lengthBetween 1 500 topic.scope) "scope"
  singleLine topic.scope "topic text"
  requireValidAliases unicode topic.aliases
  constrain (topic.mergedInto.all isTopicSlug) "merged_into"
  checkEach TopicDistinction.modelValidate topic.distinctFrom
  check (decide (topic.distinctFrom.map TopicDistinction.slug).Nodup) "distinct_from slugs must be unique"
  requireLifecycleShape topic

/-! The registry. -/

def get (topics : List Topic) (slug : String) : Option Topic := topics.find? fun topic => topic.slug == slug

/-- `slug_keys.get` -/
def slugOwner (topics : List Topic) (key : String) : Option Topic :=
  topics.find? fun topic => topicLookupKey unicode topic.slug == key

/-- One round over the aliases; the owners of the keys are collected, the last one first. -/
def requireAlias (topics : List Topic) (topic : Topic) (owners : List (String × String)) (spelling : String) :
    Except String (List (String × String)) := do
  let aliasKey := topicLookupKey unicode spelling
  check (aliasKey != topicLookupKey unicode topic.slug) "a topic alias cannot equal its own slug"
  check ((slugOwner unicode topics aliasKey).all fun owner =>
    owner.status == .merged && owner.mergedInto == some topic.slug) "a topic alias cannot equal another topic slug"
  check ((owners.lookup aliasKey).all fun previous => previous == topic.slug) "topic aliases must be globally unique"
  .ok ((aliasKey, topic.slug) :: owners)

/-- `target = by_slug.get(topic.merged_into or "")` of a merged topic, and its tests. -/
def requireMergeTarget (topics : List Topic) (topic : Topic) : Except String Unit :=
  if topic.status = .merged then
    match get topics (topic.mergedInto.getD "") with
    | none => .error "merged_into must identify an existing topic"
    | some target => check (target.status == .active) "merged_into must identify an active topic"
  else .ok ()

def requireEntry (topics : List Topic) (owners : List (String × String)) (topic : Topic) :
    Except String (List (String × String)) := do
  let owners ← topic.aliases.foldlM (requireAlias unicode topics topic) owners
  requireMergeTarget topics topic
  checkEach (fun note => check (get topics note.slug).isSome "distinct_from must identify an existing topic")
    topic.distinctFrom
  .ok owners

def requireRegistryIntegrity (topics : List Topic) : Except String Unit := do
  check (decide (topics.map Topic.slug).Nodup) "topic slugs must be unique"
  check (decide (topics.map fun topic => topicLookupKey unicode topic.slug).Nodup)
    "topic slugs must be unique after normalization"
  let _ ← topics.foldlM (requireEntry unicode topics) []
  .ok ()

def modelValidate (topics : List Topic) : Except String Unit := do
  checkEach (Topic.modelValidate unicode) topics
  requireRegistryIntegrity unicode topics

structure TopicRegistry where
  topics : List Topic
  accepted : modelValidate unicode topics = .ok ()

/-! Resolution. -/

inductive MatchedBy where
  | slug
  | spelling
deriving DecidableEq

structure TopicResolution where
  topic : Topic
  matchedBy : MatchedBy
  mergedFrom : Option String
deriving DecidableEq

/-- `any(topic_lookup_key(alias) == key for alias in topic.aliases)` -/
def hasSpelling (topic : Topic) (key : String) : Bool := topic.aliases.any fun other => topicLookupKey unicode other == key

def resolve (topics : List Topic) (value : String) : Option TopicResolution :=
  match get topics value with
  | some entry =>
    match entry.status with
    | .merged => (get topics (entry.mergedInto.getD "")).map fun target => ⟨target, .slug, some entry.slug⟩
    | .active => some ⟨entry, .slug, none⟩
    | .archived => none
  | none =>
    (topics.find? fun topic => topic.status == .active && hasSpelling unicode topic (topicLookupKey unicode value)).map
      fun topic => ⟨topic, .spelling, none⟩

def activeTopics (topics : List Topic) : List Topic := topics.filter fun topic => topic.status == .active

end
end Workctx.Topics
