import Mathlib.Data.Finset.Basic
import Workctx.Topics.Integrity

/-! The merge of one topic into another: the new entries, the documents that are tagged again, and
the documents of each topic. -/

namespace Workctx.Topics
open Workctx.Domain

inductive TopicError where
  | mutation (message : String)
  | notFound (message : String)
  | registry (message : String)
deriving DecidableEq

structure TopicDocument where
  relativePath : String
  topics : List String
deriving DecidableEq

section
variable (unicode : UnicodeData)

def dedupeAliases : List String → List String → List String
  | _, [] => []
  | seen, value :: rest =>
    let key := topicLookupKey unicode value
    if seen.contains key then dedupeAliases seen rest else value :: dedupeAliases (seen ++ [key]) rest

def requireActiveSlug (topics : List Topic) (slug : String) : Except TopicError Topic :=
  match get topics slug with
  | none => .error (.notFound ("Active topic slug '" ++ slug ++ "' was not found."))
  | some topic =>
    if topic.status = .active then .ok topic
    else .error (.notFound ("Active topic slug '" ++ slug ++ "' was not found."))

def mergedSource (source target : Topic) : Topic :=
  { source with aliases := [], status := .merged, mergedInto := some target.slug }

def updatedTarget (source target : Topic) : Topic :=
  { target with
    aliases := dedupeAliases unicode [] (target.aliases ++ source.aliases ++ [source.slug])
    distinctFrom := target.distinctFrom.filter fun note => note.slug != source.slug }

def updatedTopic (source target topic : Topic) : Topic :=
  if topic.slug = source.slug then mergedSource source target
  else if topic.slug = target.slug then updatedTarget unicode source target
  else topic

def validatedRegistry (topics : List Topic) : Except TopicError (TopicRegistry unicode) :=
  match accepted : modelValidate unicode topics with
  | .ok () => .ok ⟨topics, accepted⟩
  | .error _ => .error (.registry "The proposed topic registry violates registry integrity.")

/-- The registry part of `TopicService.merge`, for a registry that exists. -/
def merge (registry : TopicRegistry unicode) (sourceSlug targetSlug : String) :
    Except TopicError (TopicRegistry unicode) :=
  if sourceSlug = targetSlug then .error (.mutation "A topic cannot be merged into itself.")
  else do
    let source ← requireActiveSlug registry.topics sourceSlug
    let target ← requireActiveSlug registry.topics targetSlug
    validatedRegistry unicode (registry.topics.map (updatedTopic unicode source target))

/-! The documents. -/

/-- The replacement of one value in `_retag_values`. -/
def retagValue (topics : List Topic) (sourceSlug targetSlug value : String) : String :=
  match resolve unicode topics value with
  | some resolution => if resolution.topic.slug = sourceSlug then targetSlug else value
  | none => value

def retagValues (topics : List Topic) (sourceSlug targetSlug : String) (values : List String) : List String :=
  values.foldl (fun retagged value =>
    let replacement := retagValue unicode topics sourceSlug targetSlug value
    if retagged.contains replacement then retagged else retagged ++ [replacement]) []

/-- A document behind the rewrites of `TopicService.merge`. -/
def retagDocument (topics : List Topic) (sourceSlug targetSlug : String) (document : TopicDocument) : TopicDocument :=
  let retagged := retagValues unicode topics sourceSlug targetSlug document.topics
  if retagged = document.topics then document else { document with topics := retagged }

abbrev Grouped := String → Option (Finset String)

/-- `grouped.setdefault(slug, set()).add(path)` -/
def Grouped.addTo (grouped : Grouped) (slug path : String) : Grouped :=
  Function.update grouped slug (some (insert path ((grouped slug).getD ∅)))

def groupValue (topics : List Topic) (path : String) (grouped : Grouped) (value : String) : Grouped :=
  match resolve unicode topics value with
  | some resolution => grouped.addTo resolution.topic.slug path
  | none => grouped

/-- `{topic.slug: set() for topic in registry.active_topics()}` -/
def emptyGroups (topics : List Topic) : Grouped := fun slug =>
  if (activeTopics topics).any fun topic => topic.slug == slug then some ∅ else none

def documentsByTopic (topics : List Topic) (documents : List TopicDocument) : Grouped :=
  documents.foldl (fun grouped document =>
    document.topics.foldl (groupValue unicode topics document.relativePath) grouped) (emptyGroups topics)

def NoneInto (topics : List Topic) (slug : String) : Prop := ∀ topic ∈ topics, topic.mergedInto ≠ some slug

end

/-! Spellings of slugs. -/

section
variable {unicode : UnicodeData} {topics : List Topic} {topic source target : Topic}

theorem topicLookupKey_slug {text : String} (slug : isTopicSlug text = true) : topicLookupKey unicode text ≠ "" := by
  rw [isTopicSlug, Bool.and_eq_true] at slug
  obtain ⟨plain, c, member, letter⟩ := matchesSlug_chars slug.1
  intro empty
  rw [topicLookupKey, unicode.casefold_slug text plain, unicode.nfkd_slug text plain] at empty
  have kept : c ∈ (text.toList.filter fun c => !unicode.nonspacingMark c).filter isLowerAlnum := by
    rw [List.mem_filter, List.mem_filter, unicode.mark_slug c (plain c member)]
    exact ⟨⟨member, rfl⟩, letter⟩
  have none_ := congrArg String.toList empty
  rw [String.toList_ofList] at none_
  rw [none_] at kept
  cases kept

theorem singleLine_slug {text label : String} (slug : isTopicSlug text = true) : singleLine text label = .ok () := by
  rw [isTopicSlug, Bool.and_eq_true] at slug
  have plain : ∀ c ∈ text.toList, isSpace c = false ∧ isControl c = false := by
    intro c member
    exact slugChar_plain ((matchesSlug_chars slug.1).1 c member)
  have trimmed := strip_plain fun c member => (plain c member).1
  have unbroken : (text.toList.any fun c => c == '\r' || c == '\n') = false := by
    rw [List.any_eq_false]
    intro c member breaks
    rw [Bool.or_eq_true, beq_iff_eq, beq_iff_eq] at breaks
    rcases breaks with same | same <;>
    · have control := (plain c member).2
      rw [same] at control
      cases control
  have printable : text.toList.any isControl = false := by
    rw [List.any_eq_false]
    intro c member control
    rw [(plain c member).2] at control
    cases control
  rw [singleLine, check_bind_ok, trimmed, unbroken, printable]
  exact ⟨by simp, rfl⟩

end
end Workctx.Topics
