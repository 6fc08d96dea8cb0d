import Workctx.Topics.Merge

/-! When a merge is accepted: exactly when no topic was merged into its source. -/

namespace Workctx.Topics
open Workctx.Domain List

section
variable {unicode : UnicodeData} {topics : List Topic} {topic source target : Topic}

structure Merging (unicode : UnicodeData) (topics : List Topic) (source target : Topic) : Prop where
  entries : ∀ topic ∈ topics, topic.modelValidate unicode = .ok ()
  integrity : Integrity unicode topics
  sourceKnown : source ∈ topics
  targetKnown : target ∈ topics
  sourceActive : source.status = .active
  targetActive : target.status = .active
  apart : source.slug ≠ target.slug

structure Entry (unicode : UnicodeData) (topic : Topic) : Prop where
  slug : isTopicSlug topic.slug = true
  spellings : ∀ spelling ∈ topic.aliases, singleLine spelling "topic alias" = .ok () ∧ spelling ≠ "" ∧
    topicLookupKey unicode spelling ≠ ""
  keys : (topic.aliases.map (topicLookupKey unicode)).Nodup
  mergedSome : topic.status = .merged → ∃ slug, topic.mergedInto = some slug ∧ slug ≠ topic.slug
  mergedNone : topic.status ≠ .merged → topic.mergedInto = none
  others : ∀ note ∈ topic.distinctFrom, note.slug ≠ topic.slug

theorem requireValidAliases_ok {values : List String} : requireValidAliases unicode values = .ok () ↔
    (∀ spelling ∈ values, singleLine spelling "topic alias" = .ok () ∧ spelling ≠ "" ∧
      topicLookupKey unicode spelling ≠ "") ∧ (values.map (topicLookupKey unicode)).Nodup := by
  rw [requireValidAliases, bind_ok]
  constructor
  · rintro ⟨_, each, later⟩
    obtain ⟨letters, unique⟩ := check_bind_ok.mp later
    refine ⟨fun spelling member => ?_, of_decide_eq_true (check_ok.mp unique)⟩
    obtain ⟨_, single, filled⟩ := bind_ok.mp (checkEach_ok.mp each spelling member)
    refine ⟨single, bne_iff_ne.mp (check_ok.mp filled), fun empty => ?_⟩
    rw [Bool.not_eq_true', any_eq_false] at letters
    exact letters (topicLookupKey unicode spelling) (mem_map_of_mem member) (beq_iff_eq.mpr empty)
  · rintro ⟨each, unique⟩
    refine ⟨(), checkEach_ok.mpr fun spelling member => ?_, check_bind_ok.mpr ⟨?_, check_ok.mpr (decide_eq_true unique)⟩⟩
    · exact bind_ok.mpr ⟨(), (each spelling member).1, check_ok.mpr (bne_iff_ne.mpr (each spelling member).2.1)⟩
    · rw [Bool.not_eq_true', any_eq_false]
      intro key known empty
      obtain ⟨spelling, member, same⟩ := mem_map.mp known
      rw [← same, beq_iff_eq] at empty
      exact (each spelling member).2.2 empty

theorem requireLifecycleShape_ok : requireLifecycleShape topic = .ok () ↔
    (topic.status = .merged → ∃ slug, topic.mergedInto = some slug ∧ slug ≠ topic.slug) ∧
      (topic.status ≠ .merged → topic.mergedInto = none) ∧ ∀ note ∈ topic.distinctFrom, note.slug ≠ topic.slug := by
  rw [requireLifecycleShape, check_bind_ok, check_bind_ok, check_bind_ok, check_ok, Bool.not_eq_true', any_eq_false]
  by_cases merged : topic.status = .merged
  · cases topic.mergedInto <;> simp [merged]
  · cases topic.mergedInto <;> simp [merged]

theorem modelValidate_entry : topic.modelValidate unicode = .ok () ↔
    (lengthBetween 1 200 topic.name = true ∧ singleLine topic.name "topic text" = .ok () ∧
      lengthBetween 1 500 topic.scope = true ∧ singleLine topic.scope "topic text" = .ok () ∧
      topic.mergedInto.all isTopicSlug = true ∧
      checkEach TopicDistinction.modelValidate topic.distinctFrom = .ok () ∧
      (topic.distinctFrom.map TopicDistinction.slug).Nodup) ∧ Entry unicode topic := by
  constructor
  · intro accepted
    obtain ⟨slug, accepted⟩ := constrain_bind_ok.mp accepted
    obtain ⟨nameLength, accepted⟩ := constrain_bind_ok.mp accepted
    obtain ⟨_, nameLine, accepted⟩ := bind_ok.mp accepted
    obtain ⟨scopeLength, accepted⟩ := constrain_bind_ok.mp accepted
    obtain ⟨_, scopeLine, accepted⟩ := bind_ok.mp accepted
    obtain ⟨_, aliases, accepted⟩ := bind_ok.mp accepted
    obtain ⟨into, accepted⟩ := constrain_bind_ok.mp accepted
    obtain ⟨_, notes, accepted⟩ := bind_ok.mp accepted
    obtain ⟨unique, lifecycle⟩ := check_bind_ok.mp accepted
    obtain ⟨spellings, keys⟩ := requireValidAliases_ok.mp aliases
    obtain ⟨mergedSome, mergedNone, others⟩ := requireLifecycleShape_ok.mp lifecycle
    exact ⟨⟨nameLength, nameLine, scopeLength, scopeLine, into, notes, of_decide_eq_true unique⟩,
      ⟨slug, spellings, keys, mergedSome, mergedNone, others⟩⟩
  · rintro ⟨⟨nameLength, nameLine, scopeLength, scopeLine, into, notes, unique⟩, entry⟩
    have aliases := requireValidAliases_ok.mpr ⟨entry.spellings, entry.keys⟩
    have lifecycle := requireLifecycleShape_ok.mpr ⟨entry.mergedSome, entry.mergedNone, entry.others⟩
    apply constrain_bind_ok.mpr ⟨entry.slug, _⟩
    apply constrain_bind_ok.mpr ⟨nameLength, _⟩
    apply bind_ok.mpr ⟨(), nameLine, _⟩
    apply constrain_bind_ok.mpr ⟨scopeLength, _⟩
    apply bind_ok.mpr ⟨(), scopeLine, _⟩
    apply bind_ok.mpr ⟨(), aliases, _⟩
    apply constrain_bind_ok.mpr ⟨into, _⟩
    apply bind_ok.mpr ⟨(), notes, _⟩
    exact check_bind_ok.mpr ⟨decide_eq_true unique, lifecycle⟩

/-! The new entries. -/

theorem dedupeAliases_eq {values seen : List String} (unique : (values.map (topicLookupKey unicode)).Nodup)
    (fresh : ∀ value ∈ values, topicLookupKey unicode value ∉ seen) : dedupeAliases unicode seen values = values := by
  induction values generalizing seen with
  | nil => rfl
  | cons value rest ih =>
    rw [map_cons, nodup_cons] at unique
    have absent : seen.contains (topicLookupKey unicode value) = false := by
      rw [contains_eq_mem, decide_eq_false_iff_not]
      exact fresh value mem_cons_self
    have later : ∀ other ∈ rest, topicLookupKey unicode other ∉ seen ++ [topicLookupKey unicode value] := by
      intro other member inside
      rcases mem_append.mp inside with earlier | same
      · exact fresh other (mem_cons_of_mem _ member) earlier
      · apply unique.1
        rw [← mem_singleton.mp same]
        exact mem_map_of_mem member
    rw [dedupeAliases]
    simp only [absent, Bool.false_eq_true, if_false]
    rw [ih unique.2 later]

theorem updatedTopic_slug : (updatedTopic unicode source target topic).slug = topic.slug := by
  unfold updatedTopic
  split
  · next same => exact same.symm
  · split
    · next same => exact same.symm
    · rfl

namespace Merging

section
variable (merging : Merging unicode topics source target)
include merging

theorem entry (member : topic ∈ topics) : Entry unicode topic :=
  (modelValidate_entry.mp (merging.entries topic member)).2

theorem keysApart :
    ((target.aliases ++ source.aliases ++ [source.slug]).map (topicLookupKey unicode)).Nodup := by
  have integrity := merging.integrity
  rw [map_append, map_append, map_singleton]
  apply List.Nodup.append
  · apply List.Nodup.append (merging.entry merging.targetKnown).keys (merging.entry merging.sourceKnown).keys
    intro key inTarget inSource
    obtain ⟨one, oneSpells, rfl⟩ := mem_map.mp inTarget
    obtain ⟨two, twoSpells, same⟩ := mem_map.mp inSource
    exact merging.apart (integrity.oneOwner source merging.sourceKnown two twoSpells target merging.targetKnown one
      oneSpells same)
  · exact nodup_singleton _
  · intro key inside single
    rw [mem_singleton.mp single] at inside
    rcases mem_append.mp inside with inTarget | inSource
    · obtain ⟨one, oneSpells, same⟩ := mem_map.mp inTarget
      have owner := integrity.otherSlug target merging.targetKnown one oneSpells source merging.sourceKnown same.symm
      rw [merging.sourceActive] at owner
      cases owner.1
    · obtain ⟨two, twoSpells, same⟩ := mem_map.mp inSource
      exact integrity.ownSlug source merging.sourceKnown two twoSpells same

theorem updatedTarget_aliases :
    (updatedTarget unicode source target).aliases = target.aliases ++ source.aliases ++ [source.slug] :=
  dedupeAliases_eq merging.keysApart fun _ _ => not_mem_nil

end

theorem updatedTopic_source : updatedTopic unicode source target source = mergedSource source target := if_pos rfl

section
variable (merging : Merging unicode topics source target)
include merging

theorem updatedTopic_target :
    updatedTopic unicode source target target = updatedTarget unicode source target := by
  rw [updatedTopic, if_neg merging.apart.symm, if_pos rfl]

section
variable (member : topic ∈ topics)
include member

theorem updatedTopic_cases :
    topic = source ∨ topic = target ∨
      (topic.slug ≠ source.slug ∧ topic.slug ≠ target.slug ∧ updatedTopic unicode source target topic = topic) := by
  by_cases first : topic.slug = source.slug
  · exact .inl (mem_unique merging.integrity.slugs member merging.sourceKnown first)
  · by_cases second : topic.slug = target.slug
    · exact .inr (.inl (mem_unique merging.integrity.slugs member merging.targetKnown second))
    · refine .inr (.inr ⟨first, second, ?_⟩)
      rw [updatedTopic, if_neg first, if_neg second]

theorem updated_valid :
    (updatedTopic unicode source target topic).modelValidate unicode = .ok () := by
  have old := modelValidate_entry.mp (merging.entries topic member)
  rcases merging.updatedTopic_cases member with same | same | ⟨_, _, unchanged⟩
  · subst same
    rw [updatedTopic_source]
    obtain ⟨⟨nameLength, nameLine, scopeLength, scopeLine, _, notes, unique⟩, entry⟩ := old
    apply modelValidate_entry.mpr
    refine ⟨⟨nameLength, nameLine, scopeLength, scopeLine, (merging.entry merging.targetKnown).slug, notes, unique⟩, ?_⟩
    refine ⟨entry.slug, forall_mem_nil _, nodup_nil, fun _ => ?_, fun other => ?_,
      entry.others⟩
    · exact ⟨target.slug, rfl, merging.apart.symm⟩
    · exact absurd rfl other
  · subst same
    rw [merging.updatedTopic_target]
    obtain ⟨⟨nameLength, nameLine, scopeLength, scopeLine, into, notes, unique⟩, entry⟩ := old
    apply modelValidate_entry.mpr
    have kept : ∀ note ∈ (updatedTarget unicode source topic).distinctFrom, note ∈ topic.distinctFrom := by
      intro note noted
      exact (mem_filter.mp noted).1
    refine ⟨⟨nameLength, nameLine, scopeLength, scopeLine, into, ?_, ?_⟩, entry.slug, ?_, ?_, entry.mergedSome,
      entry.mergedNone, fun note noted => entry.others note (kept note noted)⟩
    · exact checkEach_ok.mpr fun note noted => checkEach_ok.mp notes note (kept note noted)
    · exact unique.sublist (List.Sublist.map _ filter_sublist)
    · rw [merging.updatedTarget_aliases]
      intro spelling spells
      rcases mem_append.mp spells with either | single
      · rcases mem_append.mp either with own | other
        · exact entry.spellings spelling own
        · exact (merging.entry merging.sourceKnown).spellings spelling other
      · rw [mem_singleton.mp single]
        have slug := (merging.entry merging.sourceKnown).slug
        refine ⟨singleLine_slug slug, fun empty => ?_, topicLookupKey_slug slug⟩
        rw [empty] at slug
        cases slug
    · rw [merging.updatedTarget_aliases]
      exact merging.keysApart
  · rw [unchanged]
    exact merging.entries topic member

theorem alias_origin {spelling : String}
    (spells : spelling ∈ (updatedTopic unicode source target topic).aliases) :
    (spelling ∈ topic.aliases ∧ topic ≠ source) ∨ (topic = target ∧ (spelling ∈ source.aliases ∨ spelling = source.slug)) := by
  rcases merging.updatedTopic_cases member with same | same | ⟨first, _, unchanged⟩
  · rw [same, updatedTopic_source] at spells
    cases spells
  · rw [same, merging.updatedTopic_target, merging.updatedTarget_aliases] at spells
    rcases mem_append.mp spells with either | single
    · rcases mem_append.mp either with own | other
      · left
        rw [same]
        exact ⟨own, fun equal => merging.apart (congrArg Topic.slug equal).symm⟩
      · exact .inr ⟨same, .inl other⟩
    · exact .inr ⟨same, .inr (mem_singleton.mp single)⟩
  · rw [unchanged] at spells
    exact .inl ⟨spells, fun equal => first (congrArg Topic.slug equal)⟩

theorem updatedTopic_status
    (other : topic ≠ source) : (updatedTopic unicode source target topic).status = topic.status ∧
      (updatedTopic unicode source target topic).mergedInto = topic.mergedInto := by
  rcases merging.updatedTopic_cases member with same | same | ⟨_, _, unchanged⟩
  · exact absurd same other
  · rw [same, merging.updatedTopic_target]
    exact ⟨rfl, rfl⟩
  · rw [unchanged]
    exact ⟨rfl, rfl⟩

end

theorem updated_integrity (free : NoneInto topics source.slug) :
    Integrity unicode (topics.map (updatedTopic unicode source target)) := by
  have integrity := merging.integrity
  have slugs : (topics.map (updatedTopic unicode source target)).map Topic.slug = topics.map Topic.slug := by
    rw [map_map]
    exact map_congr_left fun topic _ => updatedTopic_slug
  have key : ∀ topic : Topic, topicLookupKey unicode (updatedTopic unicode source target topic).slug =
      topicLookupKey unicode topic.slug := fun topic => congrArg (topicLookupKey unicode) updatedTopic_slug
  -- The source is active, so its slug has the key of no alias.
  have sourceKey : ∀ other ∈ topics, ∀ spelling ∈ other.aliases,
      topicLookupKey unicode source.slug ≠ topicLookupKey unicode spelling := by
    intro other member spelling spells same
    have owner := integrity.otherSlug other member spelling spells source merging.sourceKnown same
    rw [merging.sourceActive] at owner
    cases owner.1
  constructor
  · rw [slugs]
    exact integrity.slugs
  · rw [map_map]
    exact (map_congr_left fun topic _ => key topic).symm ▸ integrity.slugKeys
  · intro entry known spelling spells
    obtain ⟨topic, member, rfl⟩ := mem_map.mp known
    rw [key]
    rcases merging.alias_origin member spells with ⟨own, _⟩ | ⟨same, fromSource | single⟩
    · exact integrity.ownSlug topic member spelling own
    · rw [same]
      intro equal
      have owner := integrity.otherSlug source merging.sourceKnown spelling fromSource target merging.targetKnown equal.symm
      rw [merging.targetActive] at owner
      cases owner.1
    · rw [same, single]
      intro equal
      have one : source = target := inj_on_of_nodup_map integrity.slugKeys merging.sourceKnown merging.targetKnown equal
      exact merging.apart (congrArg Topic.slug one)
  · intro entry known spelling spells owner ownerKnown equal
    obtain ⟨topic, member, rfl⟩ := mem_map.mp known
    obtain ⟨old, oldMember, rfl⟩ := mem_map.mp ownerKnown
    rw [key] at equal
    rw [updatedTopic_slug]
    rcases merging.alias_origin member spells with ⟨own, _⟩ | ⟨same, fromSource | single⟩
    · have rule := integrity.otherSlug topic member spelling own old oldMember equal
      have other : old ≠ source := fun same => sourceKey topic member spelling own (same ▸ equal)
      rw [(merging.updatedTopic_status oldMember other).1, (merging.updatedTopic_status oldMember other).2]
      exact rule
    · have rule := integrity.otherSlug source merging.sourceKnown spelling fromSource old oldMember equal
      exact absurd rule.2 (free old oldMember)
    · rw [single] at equal
      have one : old = source := inj_on_of_nodup_map integrity.slugKeys oldMember merging.sourceKnown equal
      rw [one, updatedTopic_source, same]
      exact ⟨rfl, rfl⟩
  · intro entry known spelling spells other otherKnown another anotherSpells equal
    obtain ⟨first, firstMember, rfl⟩ := mem_map.mp known
    obtain ⟨second, secondMember, rfl⟩ := mem_map.mp otherKnown
    rw [updatedTopic_slug, updatedTopic_slug]
    -- An alias the target took over from the source has its key from no alias of another topic.
    have taken : ∀ {topic : Topic} {one two : String}, topic ∈ topics → two ∈ topic.aliases → topic ≠ source →
        one ∈ source.aliases ∨ one = source.slug → topicLookupKey unicode one ≠ topicLookupKey unicode two := by
      intro topic one two member own apart origin same
      rcases origin with fromSource | single
      · have owner := integrity.oneOwner topic member two own source merging.sourceKnown one fromSource same.symm
        exact apart (mem_unique integrity.slugs member merging.sourceKnown owner)
      · exact sourceKey topic member two own (single ▸ same)
    rcases merging.alias_origin firstMember spells with ⟨own, apart⟩ | ⟨same, origin⟩ <;>
      rcases merging.alias_origin secondMember anotherSpells with ⟨own', apart'⟩ | ⟨same', origin'⟩
    · exact integrity.oneOwner first firstMember spelling own second secondMember another own' equal
    · exact absurd equal.symm (taken firstMember own apart origin')
    · exact absurd equal (taken secondMember own' apart' origin)
    · rw [same, same']
  · intro entry known merged
    obtain ⟨topic, member, rfl⟩ := mem_map.mp known
    by_cases moved : topic = source
    · rw [moved, updatedTopic_source]
      refine ⟨_, mem_map_of_mem merging.targetKnown, updatedTopic_slug, ?_⟩
      rw [merging.updatedTopic_target]
      exact merging.targetActive
    · obtain ⟨status, into⟩ := merging.updatedTopic_status member moved
      rw [status] at merged
      obtain ⟨goal, goalMember, named, active⟩ := integrity.mergeTarget topic member merged
      have other : goal ≠ source := by
        intro same
        obtain ⟨slug, some_, _⟩ := (merging.entry member).mergedSome merged
        rw [some_, Option.getD_some, same] at named
        exact free topic member (named ▸ some_)
      refine ⟨_, mem_map_of_mem goalMember, ?_, ?_⟩
      · rw [updatedTopic_slug, into]
        exact named
      · rw [(merging.updatedTopic_status goalMember other).1]
        exact active
  · intro entry known note noted
    obtain ⟨topic, member, rfl⟩ := mem_map.mp known
    have kept : note ∈ topic.distinctFrom := by
      rcases merging.updatedTopic_cases member with same | same | ⟨_, _, unchanged⟩
      · rw [same, updatedTopic_source] at noted
        rw [same]
        exact noted
      · rw [same, merging.updatedTopic_target] at noted
        rw [same]
        exact (mem_filter.mp noted).1
      · rw [unchanged] at noted
        exact noted
    obtain ⟨named, namedMember, same⟩ := integrity.distinctions topic member note kept
    exact ⟨_, mem_map_of_mem namedMember, updatedTopic_slug.trans same⟩

/-- The new registry is valid exactly when no topic was merged into the source before. -/
theorem modelValidate_iff :
    modelValidate unicode (topics.map (updatedTopic unicode source target)) = .ok () ↔ NoneInto topics source.slug := by
  constructor
  · intro accepted topic member into
    have integrity := (modelValidate_ok.mp accepted).2
    have merged : topic.status = .merged := by
      by_contra other
      rw [(merging.entry member).mergedNone other] at into
      cases into
    have moved : topic ≠ source := by
      intro same
      rw [same, merging.sourceActive] at merged
      cases merged
    obtain ⟨status, kept⟩ := merging.updatedTopic_status member moved
    obtain ⟨goal, goalKnown, named, active⟩ :=
      integrity.mergeTarget _ (mem_map_of_mem member) (status.trans merged)
    rw [kept, into, Option.getD_some] at named
    have one := mem_unique integrity.slugs goalKnown (mem_map_of_mem merging.sourceKnown)
      (named.trans updatedTopic_slug.symm)
    rw [one, updatedTopic_source] at active
    cases active
  · intro free
    refine modelValidate_ok.mpr ⟨fun entry known => ?_, merging.updated_integrity free⟩
    obtain ⟨topic, member, rfl⟩ := mem_map.mp known
    exact merging.updated_valid member

end

end Merging

end

/-! Merges and runs of merges. -/

section
variable {unicode : UnicodeData}

def TopicRegistry.Active (registry : TopicRegistry unicode) (slug : String) : Prop :=
  ∃ topic ∈ registry.topics, topic.slug = slug ∧ topic.status = .active

theorem TopicRegistry.integrity (registry : TopicRegistry unicode) : Integrity unicode registry.topics :=
  (modelValidate_ok.mp registry.accepted).2

variable {registry result : TopicRegistry unicode} {sourceSlug targetSlug : String}

theorem requireActiveSlug_ok {slug : String} {topic : Topic} :
    requireActiveSlug registry.topics slug = .ok topic ↔
      topic ∈ registry.topics ∧ topic.slug = slug ∧ topic.status = .active := by
  unfold requireActiveSlug
  constructor
  · intro found
    cases looked : get registry.topics slug with
    | none =>
      rw [looked] at found
      cases found
    | some other =>
      rw [looked] at found
      dsimp only at found
      by_cases active : other.status = .active
      · rw [if_pos active] at found
        cases found
        exact ⟨(get_some looked).1, (get_some looked).2, active⟩
      · rw [if_neg active] at found
        cases found
  · rintro ⟨member, same, active⟩
    rw [← same, get_of_mem registry.integrity.slugs member]
    exact if_pos active

theorem validatedRegistry_ok {topics : List Topic} :
    validatedRegistry unicode topics = .ok result ↔ modelValidate unicode topics = .ok () ∧ result.topics = topics := by
  unfold validatedRegistry
  split
  · next accepted =>
    constructor
    · intro same
      cases same
      exact ⟨accepted, rfl⟩
    · rintro ⟨_, same⟩
      subst same
      rfl
  · next refused =>
    constructor
    · intro same
      cases same
    · rintro ⟨accepted, _⟩
      rw [refused] at accepted
      cases accepted

/-- A merge returns the registry with the two entries replaced, when the validator accepts it. -/
theorem merge_ok :
    merge unicode registry sourceSlug targetSlug = .ok result ↔
      ∃ source target, Merging unicode registry.topics source target ∧ source.slug = sourceSlug ∧
        target.slug = targetSlug ∧ NoneInto registry.topics sourceSlug ∧
        result.topics = registry.topics.map (updatedTopic unicode source target) := by
  have entries := (modelValidate_ok.mp registry.accepted).1
  unfold merge
  constructor
  · intro found
    have different : sourceSlug ≠ targetSlug := by
      intro equal
      rw [if_pos equal] at found
      cases found
    rw [if_neg different] at found
    obtain ⟨source, sourceFound, found⟩ := bind_ok.mp found
    obtain ⟨target, targetFound, made⟩ := bind_ok.mp found
    obtain ⟨sourceKnown, sourceSame, sourceActive⟩ := requireActiveSlug_ok.mp sourceFound
    obtain ⟨targetKnown, targetSame, targetActive⟩ := requireActiveSlug_ok.mp targetFound
    obtain ⟨accepted, same⟩ := validatedRegistry_ok.mp made
    have merging : Merging unicode registry.topics source target :=
      ⟨entries, registry.integrity, sourceKnown, targetKnown, sourceActive, targetActive,
        fun equal => different (sourceSame.symm.trans (equal.trans targetSame))⟩
    exact ⟨source, target, merging, sourceSame, targetSame, sourceSame ▸ merging.modelValidate_iff.mp accepted, same⟩
  · rintro ⟨source, target, merging, rfl, rfl, free, same⟩
    rw [if_neg merging.apart]
    refine bind_ok.mpr ⟨source, ?_, bind_ok.mpr ⟨target, ?_, ?_⟩⟩
    · exact requireActiveSlug_ok.mpr ⟨merging.sourceKnown, rfl, merging.sourceActive⟩
    · exact requireActiveSlug_ok.mpr ⟨merging.targetKnown, rfl, merging.targetActive⟩
    · exact validatedRegistry_ok.mpr ⟨merging.modelValidate_iff.mpr free, same⟩

theorem merge_isOk_iff
    (apart : sourceSlug ≠ targetSlug) (source : registry.Active sourceSlug) (target : registry.Active targetSlug) :
    (∃ result, merge unicode registry sourceSlug targetSlug = .ok result) ↔ NoneInto registry.topics sourceSlug := by
  constructor
  · rintro ⟨result, merged⟩
    obtain ⟨_, _, _, _, _, free, _⟩ := merge_ok.mp merged
    exact free
  · intro free
    obtain ⟨source, sourceKnown, rfl, sourceActive⟩ := source
    obtain ⟨target, targetKnown, rfl, targetActive⟩ := target
    have merging : Merging unicode registry.topics source target :=
      ⟨(modelValidate_ok.mp registry.accepted).1, registry.integrity, sourceKnown, targetKnown, sourceActive,
        targetActive, apart⟩
    exact ⟨⟨_, merging.modelValidate_iff.mpr free⟩, merge_ok.mpr ⟨source, target, merging, rfl, rfl, free, rfl⟩⟩

variable (unicode)

/-- Merges one after another; the first that is refused stops the run. -/
def runMerges : List (String × String) → TopicRegistry unicode → Except TopicError (TopicRegistry unicode)
  | [], registry => .ok registry
  | (source, target) :: rest, registry => do
    let next ← merge unicode registry source target
    runMerges rest next

def OfActiveTopics : List (String × String) → TopicRegistry unicode → Prop
  | [], _ => True
  | (source, target) :: rest, registry =>
    source ≠ target ∧ registry.Active source ∧ registry.Active target ∧
      ∀ next, merge unicode registry source target = .ok next → OfActiveTopics rest next

def FreeSources : List (String × String) → TopicRegistry unicode → Prop
  | [], _ => True
  | (source, target) :: rest, registry =>
    NoneInto registry.topics source ∧ ∀ next, merge unicode registry source target = .ok next → FreeSources rest next

variable {unicode}

theorem runMerges_isOk_iff {merges : List (String × String)}
    (proper : OfActiveTopics unicode merges registry) :
    (∃ final, runMerges unicode merges registry = .ok final) ↔ FreeSources unicode merges registry := by
  induction merges generalizing registry with
  | nil => exact ⟨fun _ => trivial, fun _ => ⟨registry, rfl⟩⟩
  | cons pair rest ih =>
    obtain ⟨source, target⟩ := pair
    obtain ⟨apart, sourceActive, targetActive, later⟩ := proper
    have one := merge_isOk_iff apart sourceActive targetActive
    constructor
    · rintro ⟨final, run⟩
      obtain ⟨next, merged, run⟩ := bind_ok.mp run
      refine ⟨one.mp ⟨next, merged⟩, fun other same => ?_⟩
      rw [merged] at same
      cases same
      exact (ih (later next merged)).mp ⟨final, run⟩
    · rintro ⟨free, others⟩
      obtain ⟨next, merged⟩ := one.mpr free
      obtain ⟨final, run⟩ := (ih (later next merged)).mpr (others next merged)
      exact ⟨final, bind_ok.mpr ⟨next, merged, run⟩⟩

theorem resolve_merged (registry : TopicRegistry unicode) {topic : Topic} (member : topic ∈ registry.topics)
    (merged : topic.status = .merged) :
    ∃ resolution, resolve unicode registry.topics topic.slug = some resolution ∧ resolution.topic.status = .active := by
  obtain ⟨target, known, named, active⟩ := registry.integrity.mergeTarget topic member merged
  have names : Names unicode registry.topics topic.slug target := .merged known topic member merged rfl named
  obtain ⟨resolution, found, same⟩ := Option.map_eq_some_iff.mp ((resolve_names registry.integrity).mpr names)
  exact ⟨resolution, found, same ▸ active⟩

theorem merge_keeps
    (merged : merge unicode registry sourceSlug targetSlug = .ok result) {slug : String} :
    (slug = sourceSlug ∨ ∃ topic ∈ registry.topics, topic.slug = slug ∧ topic.status = .merged) →
      ∃ topic ∈ result.topics, topic.slug = slug ∧ topic.status = .merged := by
  obtain ⟨source, target, merging, rfl, rfl, _, same⟩ := merge_ok.mp merged
  rw [same]
  rintro (rfl | ⟨topic, member, rfl, before⟩)
  · refine ⟨_, mem_map_of_mem merging.sourceKnown, updatedTopic_slug, ?_⟩
    rw [Merging.updatedTopic_source]
    rfl
  · have other : topic ≠ source := by
      intro equal
      rw [equal, merging.sourceActive] at before
      cases before
    exact ⟨_, mem_map_of_mem member, updatedTopic_slug, (merging.updatedTopic_status member other).1.trans before⟩

theorem runMerges_keeps {merges : List (String × String)} {final : TopicRegistry unicode}
    (run : runMerges unicode merges registry = .ok final) {slug : String}
    (known : slug ∈ merges.map Prod.fst ∨ ∃ topic ∈ registry.topics, topic.slug = slug ∧ topic.status = .merged) :
    ∃ topic ∈ final.topics, topic.slug = slug ∧ topic.status = .merged := by
  induction merges generalizing registry with
  | nil =>
    cases run
    rcases known with inside | known
    · cases inside
    · exact known
  | cons pair rest ih =>
    obtain ⟨source, target⟩ := pair
    obtain ⟨next, merged, run⟩ := bind_ok.mp run
    apply ih run
    rcases known with inside | known
    · rcases mem_cons.mp inside with first | later
      · exact .inr (merge_keeps merged (.inl first))
      · exact .inl later
    · exact .inr (merge_keeps merged (.inr known))

variable (unicode)

/-- A merge of two distinct active topics is accepted exactly when no topic was merged into its
source before. A run of such merges goes through exactly when this holds at each of them, and then every
topic merged on the way, or before, resolves to an active topic. -/
theorem merges_accepted_iff :
    (∀ (registry : TopicRegistry unicode) (source target : String), source ≠ target → registry.Active source →
      registry.Active target →
        ((∃ result, merge unicode registry source target = .ok result) ↔ NoneInto registry.topics source)) ∧
    ∀ (merges : List (String × String)) (registry : TopicRegistry unicode), OfActiveTopics unicode merges registry →
      ((∃ final, runMerges unicode merges registry = .ok final ∧
        ∀ slug, (slug ∈ merges.map Prod.fst ∨ ∃ topic ∈ registry.topics, topic.slug = slug ∧ topic.status = .merged) →
          ∃ resolution, resolve unicode final.topics slug = some resolution ∧ resolution.topic.status = .active) ↔
        FreeSources unicode merges registry) := by
  constructor
  · intro registry source target apart sourceActive targetActive
    exact merge_isOk_iff apart sourceActive targetActive
  · intro merges registry proper
    rw [← runMerges_isOk_iff proper]
    constructor
    · rintro ⟨final, run, _⟩
      exact ⟨final, run⟩
    · rintro ⟨final, run⟩
      refine ⟨final, run, fun slug known => ?_⟩
      obtain ⟨topic, member, same, merged⟩ := runMerges_keeps run known
      rw [← same]
      exact resolve_merged final member merged

end

def sampleTopic (slug : String) (status : TopicStatus) (mergedInto : Option String) : Topic where
  slug := slug
  name := slug
  scope := "Accounts."
  aliases := []
  status := status
  mergedInto := mergedInto
  createdAt := ⟨0, 0⟩
  distinctFrom := []

/-- An earlier merge into the topic that is the source of the next one. -/
def chainedRegistry : TopicRegistry sampleUnicode where
  topics := [sampleTopic "legacy" .merged (some "bank"), sampleTopic "bank" .active none, sampleTopic "payments" .active none]
  accepted := by decide +kernel

theorem chainedRegistry_active {slug : String} (known : slug = "bank" ∨ slug = "payments") :
    chainedRegistry.Active slug := by
  rcases known with same | same
  · exact ⟨sampleTopic "bank" .active none, by simp [chainedRegistry], same.symm, rfl⟩
  · exact ⟨sampleTopic "payments" .active none, by simp [chainedRegistry], same.symm, rfl⟩

theorem merges_accepted_iff_sample :
    ((∃ result, merge sampleUnicode chainedRegistry "payments" "bank" = .ok result) ↔
      NoneInto chainedRegistry.topics "payments") ∧
    ((∃ final, runMerges sampleUnicode [("payments", "bank")] chainedRegistry = .ok final ∧
      ∀ slug, (slug ∈ [("payments", "bank")].map Prod.fst ∨
          ∃ topic ∈ chainedRegistry.topics, topic.slug = slug ∧ topic.status = .merged) →
        ∃ resolution, resolve sampleUnicode final.topics slug = some resolution ∧ resolution.topic.status = .active) ↔
      FreeSources sampleUnicode [("payments", "bank")] chainedRegistry) := by
  have payments := chainedRegistry_active (.inr rfl)
  have bank := chainedRegistry_active (.inl rfl)
  exact ⟨(merges_accepted_iff sampleUnicode).1 chainedRegistry "payments" "bank" (by decide) payments bank,
    (merges_accepted_iff sampleUnicode).2 [("payments", "bank")] chainedRegistry
      ⟨by decide, payments, bank, fun _ _ => trivial⟩⟩

/-- Once a topic was merged into it, an active topic can be merged into no other. -/
theorem merge_chain_refused : ¬ ∀ (unicode : UnicodeData) (registry : TopicRegistry unicode) (source target : String),
    source ≠ target → registry.Active source → registry.Active target →
      ∃ result, merge unicode registry source target = .ok result := by
  intro claimed
  have bank := chainedRegistry_active (.inl rfl)
  have payments := chainedRegistry_active (.inr rfl)
  have apart : "bank" ≠ "payments" := by decide
  have free := (merge_isOk_iff apart bank payments).mp (claimed sampleUnicode chainedRegistry "bank" "payments" apart bank payments)
  exact free (sampleTopic "legacy" .merged (some "bank")) List.mem_cons_self rfl

end Workctx.Topics
