import Workctx.Topics.Registry

/-! What an accepted registry is, and that resolution in it is a relation without ambiguity. -/

namespace Workctx.Topics
open Workctx.Domain List

section
variable {unicode : UnicodeData} {topics : List Topic} {topic other : Topic}

/-- The rules between the entries of a registry. -/
structure Integrity (unicode : UnicodeData) (topics : List Topic) : Prop where
  slugs : (topics.map Topic.slug).Nodup
  slugKeys : (topics.map fun topic => topicLookupKey unicode topic.slug).Nodup
  ownSlug : ∀ topic ∈ topics, ∀ spelling ∈ topic.aliases,
    topicLookupKey unicode spelling ≠ topicLookupKey unicode topic.slug
  otherSlug : ∀ topic ∈ topics, ∀ spelling ∈ topic.aliases, ∀ owner ∈ topics,
    topicLookupKey unicode owner.slug = topicLookupKey unicode spelling →
      owner.status = .merged ∧ owner.mergedInto = some topic.slug
  oneOwner : ∀ topic ∈ topics, ∀ spelling ∈ topic.aliases, ∀ other ∈ topics, ∀ another ∈ other.aliases,
    topicLookupKey unicode spelling = topicLookupKey unicode another → topic.slug = other.slug
  mergeTarget : ∀ topic ∈ topics, topic.status = .merged →
    ∃ target ∈ topics, target.slug = topic.mergedInto.getD "" ∧ target.status = .active
  distinctions : ∀ topic ∈ topics, ∀ note ∈ topic.distinctFrom, ∃ named ∈ topics, named.slug = note.slug

theorem get_some {slug : String} (found : get topics slug = some topic) : topic ∈ topics ∧ topic.slug = slug :=
  ⟨mem_of_find?_eq_some found, by simpa using find?_some found⟩

theorem find_of_nodup {key : Topic → String} (apart : (topics.map key).Nodup) (member : topic ∈ topics) :
    topics.find? (fun entry => key entry == key topic) = some topic := by
  induction topics with
  | nil => cases member
  | cons first rest ih =>
    rw [map_cons, nodup_cons] at apart
    by_cases same : key first = key topic
    · rw [find?_cons_of_pos (by rw [same]; exact beq_self_eq_true _)]
      rcases mem_cons.mp member with head | tail
      · rw [head]
      · exact absurd (mem_map.mpr ⟨topic, tail, same.symm⟩) apart.1
    · rw [find?_cons_of_neg (by rw [beq_iff_eq]; exact same)]
      rcases mem_cons.mp member with head | tail
      · rw [head] at same
        exact absurd rfl same
      · exact ih apart.2 tail

theorem get_of_mem (slugs : (topics.map Topic.slug).Nodup) (member : topic ∈ topics) :
    get topics topic.slug = some topic := find_of_nodup slugs member

theorem get_isSome {slug : String} : (get topics slug).isSome = true ↔ ∃ named ∈ topics, named.slug = slug := by
  rw [get, find?_isSome]
  simp only [beq_iff_eq]

theorem slugOwner_of_mem (keys : (topics.map fun topic => topicLookupKey unicode topic.slug).Nodup)
    (member : topic ∈ topics) : slugOwner unicode topics (topicLookupKey unicode topic.slug) = some topic := by
  have whole : (topics.map fun entry => topicLookupKey unicode entry.slug).Nodup := keys
  exact find_of_nodup whole member

/-! The loop over the aliases collects their owners. -/

def OneOwner (owners : List (String × String)) : Prop :=
  ∀ first ∈ owners, ∀ second ∈ owners, first.1 = second.1 → first.2 = second.2

def ownerOf (unicode : UnicodeData) (topic : Topic) (spelling : String) : String × String :=
  (topicLookupKey unicode spelling, topic.slug)

def ownersOf (unicode : UnicodeData) (topic : Topic) : List (String × String) :=
  (topic.aliases.map (ownerOf unicode topic)).reverse

def Spells (unicode : UnicodeData) (topics : List Topic) (topic : Topic) (spelling : String) : Prop :=
  topicLookupKey unicode spelling ≠ topicLookupKey unicode topic.slug ∧
    ∀ owner, slugOwner unicode topics (topicLookupKey unicode spelling) = some owner →
      owner.status = .merged ∧ owner.mergedInto = some topic.slug

variable {owners result : List (String × String)}

variable {key value : String}

theorem lookup_mem (found : owners.lookup key = some value) :
    (key, value) ∈ owners := by
  induction owners with
  | nil => cases found
  | cons first rest ih =>
    obtain ⟨firstKey, firstValue⟩ := first
    rw [lookup_cons] at found
    by_cases same : (key == firstKey) = true
    · rw [same] at found
      cases found
      rw [beq_iff_eq.mp same]
      exact mem_cons_self
    · rw [Bool.not_eq_true] at same
      rw [same] at found
      exact mem_cons_of_mem _ (ih found)

theorem lookup_none (missing : owners.lookup key = none) :
    ∀ value, (key, value) ∉ owners := by
  intro value member
  rw [lookup_eq_none_iff] at missing
  exact absurd (missing (key, value) member) (by simp)

/-- The test against the owners so far keeps every key with one owner. -/
theorem oneOwner_cons {slug : String} (before : OneOwner owners) :
    ((owners.lookup key).all fun previous => previous == slug) = true ↔ OneOwner ((key, slug) :: owners) := by
  constructor
  · intro passed
    have same : ∀ value, (key, value) ∈ owners → value = slug := by
      intro value member
      cases found : owners.lookup key with
      | none => exact absurd member (lookup_none found value)
      | some previous =>
        rw [found, Option.all_some, beq_iff_eq] at passed
        exact (before (key, value) member (key, previous) (lookup_mem found) rfl).trans passed
    intro first firstMember second secondMember keys
    rcases mem_cons.mp firstMember with firstHead | firstTail <;>
      rcases mem_cons.mp secondMember with secondHead | secondTail
    · rw [firstHead, secondHead]
    · rw [firstHead] at keys ⊢
      apply (same second.2 _).symm
      rw [show key = second.1 from keys]
      exact secondTail
    · rw [secondHead] at keys ⊢
      apply same first.2
      rw [← show first.1 = key from keys]
      exact firstTail
    · exact before first firstTail second secondTail keys
  · intro whole
    cases found : owners.lookup key with
    | none => rfl
    | some previous =>
      rw [Option.all_some, beq_iff_eq]
      exact whole (key, previous) (mem_cons_of_mem _ (lookup_mem found)) (key, slug) mem_cons_self rfl

theorem requireAlias_ok {spelling : String} (before : OneOwner owners) :
    requireAlias unicode topics topic owners spelling = .ok result ↔
      Spells unicode topics topic spelling ∧ result = ownerOf unicode topic spelling :: owners ∧ OneOwner result := by
  simp only [requireAlias, check_bind_ok, bne_iff_ne, oneOwner_cons before]
  constructor
  · rintro ⟨own, others, one, same⟩
    cases same
    refine ⟨⟨own, fun owner found => ?_⟩, rfl, one⟩
    rw [found, Option.all_some, Bool.and_eq_true, beq_iff_eq, beq_iff_eq] at others
    exact others
  · rintro ⟨⟨own, others⟩, same, one⟩
    refine ⟨own, ?_, same ▸ one, by rw [same]; rfl⟩
    cases found : slugOwner unicode topics (topicLookupKey unicode spelling) with
    | none => rfl
    | some owner =>
      rw [Option.all_some, Bool.and_eq_true, beq_iff_eq, beq_iff_eq]
      exact others owner found

theorem requireAliases_ok {spellings : List String} (before : OneOwner owners) :
    spellings.foldlM (requireAlias unicode topics topic) owners = .ok result ↔
      (∀ spelling ∈ spellings, Spells unicode topics topic spelling) ∧
        result = (spellings.map (ownerOf unicode topic)).reverse ++ owners ∧ OneOwner result := by
  induction spellings generalizing owners with
  | nil =>
    rw [foldlM_nil]
    constructor
    · intro same
      cases same
      exact ⟨by simp, rfl, before⟩
    · rintro ⟨_, same, _⟩
      rw [same]
      rfl
  | cons spelling rest ih =>
    rw [foldlM_cons, bind_ok, forall_mem_cons, map_cons, reverse_cons, append_assoc,
      singleton_append]
    constructor
    · rintro ⟨middle, one, later⟩
      obtain ⟨spells, same, kept⟩ := (requireAlias_ok before).mp one
      obtain ⟨others, whole, final⟩ := (ih kept).mp later
      rw [same] at whole
      exact ⟨⟨spells, others⟩, whole, final⟩
    · rintro ⟨⟨spells, others⟩, whole, final⟩
      have kept : OneOwner (ownerOf unicode topic spelling :: owners) := by
        intro first firstMember second secondMember
        rw [whole] at final
        exact final first (mem_append_right _ firstMember) second (mem_append_right _ secondMember)
      exact ⟨_, (requireAlias_ok before).mpr ⟨spells, rfl, kept⟩, (ih kept).mpr ⟨others, whole, final⟩⟩

structure Placed (unicode : UnicodeData) (topics : List Topic) (topic : Topic) : Prop where
  spells : ∀ spelling ∈ topic.aliases, Spells unicode topics topic spelling
  mergeTarget : topic.status = .merged →
    ∃ target, get topics (topic.mergedInto.getD "") = some target ∧ target.status = .active
  distinctions : ∀ note ∈ topic.distinctFrom, (get topics note.slug).isSome = true

theorem requireMergeTarget_ok : requireMergeTarget topics topic = .ok () ↔ (topic.status = .merged →
    ∃ target, get topics (topic.mergedInto.getD "") = some target ∧ target.status = .active) := by
  unfold requireMergeTarget
  by_cases merged : topic.status = .merged
  · rw [if_pos merged]
    cases get topics (topic.mergedInto.getD "") with
    | none => simp [merged]
    | some target => simp [check_ok, merged]
  · rw [if_neg merged]
    exact ⟨fun _ same => absurd same merged, fun _ => rfl⟩

theorem requireEntry_ok (before : OneOwner owners) :
    requireEntry unicode topics owners topic = .ok result ↔
      Placed unicode topics topic ∧ result = ownersOf unicode topic ++ owners ∧ OneOwner result := by
  rw [requireEntry, bind_ok]
  constructor
  · rintro ⟨middle, aliases, later⟩
    obtain ⟨spells, whole, one⟩ := (requireAliases_ok before).mp aliases
    obtain ⟨_, target, later⟩ := bind_ok.mp later
    obtain ⟨_, notes, same⟩ := bind_ok.mp later
    cases same
    refine ⟨⟨spells, requireMergeTarget_ok.mp target, fun note noted => ?_⟩, whole, one⟩
    exact check_ok.mp (checkEach_ok.mp notes note noted)
  · rintro ⟨placed, whole, one⟩
    refine ⟨result, (requireAliases_ok before).mpr ⟨placed.spells, whole, one⟩, bind_ok.mpr ⟨(), ?_, bind_ok.mpr ⟨(), ?_, rfl⟩⟩⟩
    · exact requireMergeTarget_ok.mpr placed.mergeTarget
    · exact checkEach_ok.mpr fun note noted => check_ok.mpr (placed.distinctions note noted)

theorem requireEntries_ok {entries : List Topic} (before : OneOwner owners) :
    entries.foldlM (requireEntry unicode topics) owners = .ok result ↔
      (∀ entry ∈ entries, Placed unicode topics entry) ∧
        result = (entries.reverse.flatMap (ownersOf unicode)) ++ owners ∧ OneOwner result := by
  induction entries generalizing owners with
  | nil =>
    rw [foldlM_nil]
    constructor
    · intro same
      cases same
      exact ⟨by simp, rfl, before⟩
    · rintro ⟨_, same, _⟩
      rw [same]
      rfl
  | cons entry rest ih =>
    rw [foldlM_cons, bind_ok, forall_mem_cons, reverse_cons, flatMap_append, flatMap_singleton,
      append_assoc]
    constructor
    · rintro ⟨middle, one, later⟩
      obtain ⟨placed, same, kept⟩ := (requireEntry_ok before).mp one
      obtain ⟨others, whole, final⟩ := (ih kept).mp later
      rw [same] at whole
      exact ⟨⟨placed, others⟩, whole, final⟩
    · rintro ⟨⟨placed, others⟩, whole, final⟩
      have kept : OneOwner (ownersOf unicode entry ++ owners) := by
        intro first firstMember second secondMember
        rw [whole] at final
        exact final first (mem_append_right _ firstMember) second (mem_append_right _ secondMember)
      exact ⟨_, (requireEntry_ok before).mpr ⟨placed, rfl, kept⟩, (ih kept).mpr ⟨others, whole, final⟩⟩

theorem requireRegistryIntegrity_ok : requireRegistryIntegrity unicode topics = .ok () ↔ Integrity unicode topics := by
  have empty : OneOwner [] := forall_mem_nil _
  rw [requireRegistryIntegrity, check_bind_ok, check_bind_ok, bind_ok, decide_eq_true_eq, decide_eq_true_eq]
  have owned : ∀ {pair : String × String}, pair ∈ topics.reverse.flatMap (ownersOf unicode) ↔
      ∃ topic ∈ topics, ∃ spelling ∈ topic.aliases, ownerOf unicode topic spelling = pair := by
    intro pair
    simp only [ownersOf, mem_flatMap, mem_reverse, mem_map]
  constructor
  · rintro ⟨slugs, keys, owners, loop, _⟩
    obtain ⟨placed, whole, one⟩ := (requireEntries_ok empty).mp loop
    rw [whole, append_nil] at one
    refine ⟨slugs, keys, fun topic member spelling spells => ((placed topic member).spells spelling spells).1, ?_, ?_, ?_, ?_⟩
    · intro topic member spelling spells owner ownerMember same
      apply ((placed topic member).spells spelling spells).2
      rw [← same]
      exact slugOwner_of_mem keys ownerMember
    · intro topic member spelling spells other otherMember another anotherSpells same
      exact one (ownerOf unicode topic spelling) (owned.mpr ⟨topic, member, spelling, spells, rfl⟩)
        (ownerOf unicode other another) (owned.mpr ⟨other, otherMember, another, anotherSpells, rfl⟩) same
    · intro topic member merged
      obtain ⟨target, found, active⟩ := (placed topic member).mergeTarget merged
      exact ⟨target, (get_some found).1, (get_some found).2, active⟩
    · intro topic member note noted
      exact get_isSome.mp ((placed topic member).distinctions note noted)
  · intro integrity
    refine ⟨integrity.slugs, integrity.slugKeys, _,
      (requireEntries_ok empty).mpr ⟨fun topic member => ⟨?_, ?_, ?_⟩, (append_nil _).symm, ?_⟩, rfl⟩
    · intro spelling spells
      refine ⟨integrity.ownSlug topic member spelling spells, fun owner found => ?_⟩
      have key : topicLookupKey unicode owner.slug = topicLookupKey unicode spelling := by
        simpa using find?_some found
      exact integrity.otherSlug topic member spelling spells owner (mem_of_find?_eq_some found) key
    · intro merged
      obtain ⟨target, inside, named, active⟩ := integrity.mergeTarget topic member merged
      exact ⟨target, named ▸ get_of_mem integrity.slugs inside, active⟩
    · intro note noted
      exact get_isSome.mpr (integrity.distinctions topic member note noted)
    · intro first firstMember second secondMember same
      obtain ⟨topic, member, spelling, spells, rfl⟩ := owned.mp firstMember
      obtain ⟨other, otherMember, another, anotherSpells, rfl⟩ := owned.mp secondMember
      exact integrity.oneOwner topic member spelling spells other otherMember another anotherSpells same

theorem modelValidate_ok : modelValidate unicode topics = .ok () ↔
    (∀ topic ∈ topics, topic.modelValidate unicode = .ok ()) ∧ Integrity unicode topics := by
  rw [modelValidate, bind_ok]
  constructor
  · rintro ⟨_, each, whole⟩
    exact ⟨checkEach_ok.mp each, requireRegistryIntegrity_ok.mp whole⟩
  · rintro ⟨each, whole⟩
    exact ⟨(), checkEach_ok.mpr each, requireRegistryIntegrity_ok.mpr whole⟩

/-! Resolution. -/

/-- The value names the topic: by its slug, by the slug of a topic merged into it, or by an alias
where no topic has the value as its slug. -/
inductive Names (unicode : UnicodeData) (topics : List Topic) (value : String) (topic : Topic) : Prop where
  | slug (member : topic ∈ topics) (active : topic.status = .active) (same : topic.slug = value)
  | merged (member : topic ∈ topics) (entry : Topic) (known : entry ∈ topics) (merged : entry.status = .merged)
      (same : entry.slug = value) (into : topic.slug = entry.mergedInto.getD "")
  | spelling (member : topic ∈ topics) (active : topic.status = .active) (unknown : ∀ entry ∈ topics, entry.slug ≠ value)
      (spelling : String) (spells : spelling ∈ topic.aliases)
      (same : topicLookupKey unicode spelling = topicLookupKey unicode value)

theorem Names.member (names : Names unicode topics value topic) : topic ∈ topics := by
  cases names with
  | slug member => exact member
  | merged member => exact member
  | spelling member => exact member

theorem Names.active (integrity : Integrity unicode topics) (names : Names unicode topics value topic) :
    topic.status = .active := by
  cases names with
  | slug _ active => exact active
  | spelling _ active => exact active
  | merged member entry known merged same into =>
    obtain ⟨target, inside, named, active⟩ := integrity.mergeTarget entry known merged
    have one := get_of_mem integrity.slugs inside
    rw [named, ← into, get_of_mem integrity.slugs member] at one
    rw [Option.some.inj one]
    exact active

theorem get_none : get topics value = none ↔ ∀ entry ∈ topics, entry.slug ≠ value := by
  rw [get, find?_eq_none]
  simp only [beq_iff_eq, ne_eq]

theorem mem_unique (slugs : (topics.map Topic.slug).Nodup) (one : topic ∈ topics) (two : other ∈ topics)
    (same : topic.slug = other.slug) : topic = other := by
  have first := get_of_mem slugs one
  rw [same, get_of_mem slugs two] at first
  exact (Option.some.inj first).symm

theorem hasSpelling_iff : hasSpelling unicode topic key = true ↔
    ∃ spelling ∈ topic.aliases, topicLookupKey unicode spelling = key := by
  rw [hasSpelling, any_eq_true]
  simp only [beq_iff_eq]

/-- What `resolve` returns is what the value names. -/
theorem resolve_names (integrity : Integrity unicode topics) :
    (resolve unicode topics value).map TopicResolution.topic = some topic ↔ Names unicode topics value topic := by
  unfold resolve
  cases found : get topics value with
  | some entry =>
    obtain ⟨known, named⟩ := get_some found
    dsimp only
    constructor
    · intro answer
      cases status : entry.status with
      | merged =>
        rw [status] at answer
        simp only [Option.map_map, Option.map_eq_some_iff, Function.comp_apply] at answer
        obtain ⟨target, inside, same⟩ := answer
        rw [← same]
        exact .merged (get_some inside).1 entry known status named (get_some inside).2
      | active =>
        rw [status] at answer
        cases answer
        exact .slug known status named
      | archived =>
        rw [status] at answer
        cases answer
    · intro names
      cases names with
      | slug member active same =>
        have one := mem_unique integrity.slugs known member (named.trans same.symm)
        rw [one, active]
        rfl
      | merged member other otherKnown merged same into =>
        have one := mem_unique integrity.slugs known otherKnown (named.trans same.symm)
        rw [one, merged]
        simp only [Option.map_map]
        rw [← into, get_of_mem integrity.slugs member]
        rfl
      | spelling _ _ unknown => exact absurd named (unknown entry known)
  | none =>
    have unknown := get_none.mp found
    dsimp only
    rw [Option.map_map]
    constructor
    · intro answer
      obtain ⟨first, search, same⟩ := Option.map_eq_some_iff.mp answer
      have accepted := find?_some search
      rw [Bool.and_eq_true, beq_iff_eq, hasSpelling_iff] at accepted
      obtain ⟨active, spelling, spells, key⟩ := accepted
      rw [← show first = topic from same]
      exact .spelling (mem_of_find?_eq_some search) active unknown spelling spells key
    · intro names
      cases names with
      | slug member _ same => exact absurd same (unknown topic member)
      | merged _ entry known _ same => exact absurd same (unknown entry known)
      | spelling member active _ spelling spells same =>
        have some_ : (topics.find? fun entry =>
            entry.status == .active && hasSpelling unicode entry (topicLookupKey unicode value)).isSome = true := by
          rw [find?_isSome]
          refine ⟨topic, member, ?_⟩
          rw [Bool.and_eq_true, beq_iff_eq, hasSpelling_iff]
          exact ⟨active, spelling, spells, same⟩
        obtain ⟨first, search⟩ := Option.isSome_iff_exists.mp some_
        have accepted := find?_some search
        rw [Bool.and_eq_true, beq_iff_eq, hasSpelling_iff] at accepted
        obtain ⟨_, another, anotherSpells, key⟩ := accepted
        have inside := mem_of_find?_eq_some search
        have owner := integrity.oneOwner first inside another anotherSpells topic member spelling spells
          (key.trans same.symm)
        rw [search, Option.map_some]
        exact congrArg some (mem_unique integrity.slugs inside member owner)

theorem Names.unique (integrity : Integrity unicode topics) (one : Names unicode topics value topic)
    (two : Names unicode topics value other) : topic = other := by
  have first := (resolve_names integrity).mpr one
  rw [(resolve_names integrity).mpr two] at first
  exact (Option.some.inj first).symm

end
end Workctx.Topics
