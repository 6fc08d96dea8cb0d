import Workctx.Topics.Merging

/-! What a merge preserves: every value resolves as before, with the source replaced by the target,
and the documents of the source become documents of the target. -/

namespace Workctx.Topics
open Workctx.Domain List

section
variable {unicode : UnicodeData} {topics : List Topic} {topic source target : Topic} {value slug : String}

def heir (source target topic : Topic) : Topic := if topic.slug = source.slug then target else topic

theorem heir_slug : (heir source target topic).slug = if topic.slug = source.slug then target.slug else topic.slug := by
  unfold heir
  split <;> rfl

def Stray (unicode : UnicodeData) (topics : List Topic) (sourceSlug value : String) : Prop :=
  (∀ entry ∈ topics, entry.slug ≠ value) ∧ topicLookupKey unicode sourceSlug = topicLookupKey unicode value

namespace Merging

theorem heir_source : heir source target source = target := if_pos rfl

section
variable (merging : Merging unicode topics source target)
include merging

theorem heir_other (member : topic ∈ topics) (other : topic ≠ source) :
    heir source target topic = topic := by
  refine if_neg fun same => other ?_
  exact mem_unique merging.integrity.slugs member merging.sourceKnown same

theorem ne_source_of_active (member : topic ∈ topics)
    (active : (updatedTopic unicode source target topic).status = .active) : topic ≠ source ∧ topic.status = .active := by
  have other : topic ≠ source := by
    intro same
    rw [same, updatedTopic_source] at active
    cases active
  exact ⟨other, (merging.updatedTopic_status member other).1 ▸ active⟩

theorem target_ne_source : target ≠ source :=
  fun same => merging.apart (congrArg Topic.slug same).symm

theorem names_iff (free : NoneInto topics source.slug) {entry : Topic} :
    Names unicode (topics.map (updatedTopic unicode source target)) value entry ↔
      (∃ topic, Names unicode topics value topic ∧ entry = updatedTopic unicode source target (heir source target topic)) ∨
        (Stray unicode topics source.slug value ∧ entry = updatedTopic unicode source target target) := by
  have updated := merging.updated_integrity free
  have unknown : (∀ entry ∈ topics.map (updatedTopic unicode source target), entry.slug ≠ value) ↔
      ∀ entry ∈ topics, entry.slug ≠ value := by
    constructor
    · intro absent topic member
      have kept : (updatedTopic unicode source target topic).slug = topic.slug := updatedTopic_slug
      rw [← kept]
      exact absent _ (mem_map_of_mem member)
    · intro absent entry known
      obtain ⟨topic, member, rfl⟩ := mem_map.mp known
      rw [updatedTopic_slug]
      exact absent topic member
  constructor
  · intro names
    cases names with
    | slug known active same =>
      obtain ⟨topic, member, rfl⟩ := mem_map.mp known
      obtain ⟨other, before⟩ := merging.ne_source_of_active member active
      rw [updatedTopic_slug] at same
      exact .inl ⟨topic, .slug member before same, by rw [merging.heir_other member other]⟩
    | merged known old oldKnown status same into =>
      obtain ⟨topic, member, rfl⟩ := mem_map.mp known
      obtain ⟨from_, fromMember, rfl⟩ := mem_map.mp oldKnown
      rw [updatedTopic_slug] at same into
      by_cases moved : from_ = source
      · rw [moved, updatedTopic_source] at into
        rw [moved] at same
        have one := mem_unique merging.integrity.slugs member merging.targetKnown into
        exact .inl ⟨source, .slug merging.sourceKnown merging.sourceActive same, by rw [heir_source, one]⟩
      · obtain ⟨statusSame, intoSame⟩ := merging.updatedTopic_status fromMember moved
        rw [statusSame] at status
        rw [intoSame] at into
        have other : topic ≠ source := by
          intro equal
          obtain ⟨slug, some_, _⟩ := (merging.entry fromMember).mergedSome status
          rw [some_, Option.getD_some, equal] at into
          exact free from_ fromMember (into ▸ some_)
        exact .inl ⟨topic, .merged member from_ fromMember status same into, by rw [merging.heir_other member other]⟩
    | spelling known active absent spelling spells same =>
      obtain ⟨topic, member, rfl⟩ := mem_map.mp known
      obtain ⟨other, before⟩ := merging.ne_source_of_active member active
      have absent := unknown.mp absent
      rcases merging.alias_origin member spells with ⟨own, _⟩ | ⟨equal, fromSource | single⟩
      · exact .inl ⟨topic, .spelling member before absent spelling own same, by rw [merging.heir_other member other]⟩
      · left
        exact ⟨source, .spelling merging.sourceKnown merging.sourceActive absent spelling fromSource same,
          by rw [heir_source, equal]⟩
      · rw [single] at same
        exact .inr ⟨⟨absent, same⟩, by rw [equal]⟩
  · have targetStatus := (merging.updatedTopic_status merging.targetKnown merging.target_ne_source).1.trans merging.targetActive
    have targetAliases := merging.updatedTarget_aliases
    rw [← merging.updatedTopic_target] at targetAliases
    rintro (⟨topic, names, rfl⟩ | ⟨⟨absent, same⟩, rfl⟩)
    · have known := mem_map_of_mem (f := updatedTopic unicode source target) names.member
      have active := names.active merging.integrity
      by_cases moved : topic = source
      · subst moved
        rw [heir_source]
        have targetKnown := mem_map_of_mem (f := updatedTopic unicode topic target) merging.targetKnown
        cases names with
        | slug member _ same =>
          refine .merged targetKnown _ (mem_map_of_mem member) ?_ (updatedTopic_slug.trans same) ?_
          · rw [updatedTopic_source]
            rfl
          · rw [updatedTopic_slug, updatedTopic_source]
            rfl
        | merged member old oldKnown status same into =>
          obtain ⟨slug, some_, _⟩ := (merging.entry oldKnown).mergedSome status
          rw [some_, Option.getD_some] at into
          exact absurd (into ▸ some_) (free old oldKnown)
        | spelling member _ absent spelling spells same =>
          refine .spelling targetKnown targetStatus (unknown.mpr absent) spelling ?_ same
          rw [targetAliases]
          exact mem_append_left _ (mem_append_right _ spells)
      · rw [merging.heir_other names.member moved]
        have status := (merging.updatedTopic_status names.member moved).1.trans active
        cases names with
        | slug member _ same => exact .slug known status (updatedTopic_slug.trans same)
        | merged member old oldKnown oldStatus same into =>
          have other : old ≠ source := by
            intro equal
            rw [equal, merging.sourceActive] at oldStatus
            cases oldStatus
          obtain ⟨statusSame, intoSame⟩ := merging.updatedTopic_status oldKnown other
          refine .merged known _ (mem_map_of_mem oldKnown) (statusSame.trans oldStatus) (updatedTopic_slug.trans same) ?_
          rw [updatedTopic_slug, intoSame]
          exact into
        | spelling member _ absent spelling spells same =>
          refine .spelling known status (unknown.mpr absent) spelling ?_ same
          rcases merging.updatedTopic_cases member with equal | equal | ⟨_, _, unchanged⟩
          · exact absurd equal moved
          · rw [equal, targetAliases]
            exact mem_append_left _ (mem_append_left _ (equal ▸ spells))
          · rw [unchanged]
            exact spells
    · refine .spelling (mem_map_of_mem merging.targetKnown) targetStatus (unknown.mpr absent) source.slug ?_ same
      rw [targetAliases]
      exact mem_append_right _ (mem_singleton_self _)

end

end Merging

def resolvedSlug (unicode : UnicodeData) (topics : List Topic) (value : String) : Option String :=
  (resolve unicode topics value).map fun resolution => resolution.topic.slug

theorem resolvedSlug_iff (integrity : Integrity unicode topics) :
    resolvedSlug unicode topics value = some slug ↔ ∃ topic, Names unicode topics value topic ∧ topic.slug = slug := by
  rw [resolvedSlug, Option.map_eq_some_iff]
  constructor
  · rintro ⟨resolution, found, same⟩
    exact ⟨resolution.topic, (resolve_names integrity).mp (by rw [found]; rfl), same⟩
  · rintro ⟨topic, names, same⟩
    obtain ⟨resolution, found, one⟩ := Option.map_eq_some_iff.mp ((resolve_names integrity).mpr names)
    exact ⟨resolution, found, one ▸ same⟩

namespace Merging

theorem resolvedSlug_updated (merging : Merging unicode topics source target) (free : NoneInto topics source.slug) :
    resolvedSlug unicode (topics.map (updatedTopic unicode source target)) value = some slug ↔
      (∃ before, resolvedSlug unicode topics value = some before ∧
        slug = if before = source.slug then target.slug else before) ∨
      (Stray unicode topics source.slug value ∧ slug = target.slug) := by
  rw [resolvedSlug_iff (merging.updated_integrity free)]
  constructor
  · rintro ⟨entry, names, rfl⟩
    rcases (merging.names_iff free).mp names with ⟨topic, before, rfl⟩ | ⟨stray, rfl⟩
    · rw [updatedTopic_slug, heir_slug]
      exact .inl ⟨topic.slug, (resolvedSlug_iff merging.integrity).mpr ⟨topic, before, rfl⟩, rfl⟩
    · exact .inr ⟨stray, updatedTopic_slug⟩
  · rintro (⟨before, found, rfl⟩ | ⟨stray, rfl⟩)
    · obtain ⟨topic, names, rfl⟩ := (resolvedSlug_iff merging.integrity).mp found
      exact ⟨_, (merging.names_iff free).mpr (.inl ⟨topic, names, rfl⟩), updatedTopic_slug.trans heir_slug⟩
    · exact ⟨_, (merging.names_iff free).mpr (.inr ⟨stray, rfl⟩), updatedTopic_slug⟩

theorem stray_unresolved (merging : Merging unicode topics source target) (stray : Stray unicode topics source.slug value) :
    resolvedSlug unicode topics value = none := by
  cases found : resolvedSlug unicode topics value with
  | none => rfl
  | some slug =>
    obtain ⟨topic, names, _⟩ := (resolvedSlug_iff merging.integrity).mp found
    cases names with
    | slug member _ same => exact absurd same (stray.1 topic member)
    | merged _ entry known _ same => exact absurd same (stray.1 entry known)
    | spelling member _ _ spelling spells same =>
      have owner := merging.integrity.otherSlug topic member spelling spells source merging.sourceKnown
        (stray.2.trans same.symm)
      rw [merging.sourceActive] at owner
      cases owner.1

end Merging

/-! The documents of each topic. -/

/-- The slugs the values of the documents resolve to, with the paths. -/
def taggings (unicode : UnicodeData) (topics : List Topic) (documents : List TopicDocument) : List (String × String) :=
  documents.flatMap fun document => document.topics.filterMap fun value =>
    (resolvedSlug unicode topics value).map fun slug => (slug, document.relativePath)

variable {documents : List TopicDocument} {sourceSlug targetSlug : String}

theorem mem_taggings {path : String} :
    (slug, path) ∈ taggings unicode topics documents ↔
      ∃ document ∈ documents, document.relativePath = path ∧
        ∃ value ∈ document.topics, resolvedSlug unicode topics value = some slug := by
  simp only [taggings, mem_flatMap, mem_filterMap, Option.map_eq_some_iff, Prod.mk.injEq]
  constructor
  · rintro ⟨document, member, value, tagged, found, resolved, rfl, rfl⟩
    exact ⟨document, member, rfl, value, tagged, resolved⟩
  · rintro ⟨document, member, rfl, value, tagged, resolved⟩
    exact ⟨document, member, value, tagged, slug, resolved, rfl, rfl⟩

/-- The paths of the taggings, added to the sets of their slugs. -/
def collect (grouped : Grouped) (taggings : List (String × String)) : Grouped :=
  taggings.foldl (fun grouped tagging => grouped.addTo tagging.1 tagging.2) grouped

theorem foldl_groupValue {values : List String} {path : String} {grouped : Grouped} :
    values.foldl (groupValue unicode topics path) grouped =
      collect grouped (values.filterMap fun value => (resolvedSlug unicode topics value).map fun slug => (slug, path)) := by
  induction values generalizing grouped with
  | nil => rfl
  | cons value rest ih =>
    rw [foldl_cons, ih, filterMap_cons, groupValue, resolvedSlug]
    cases resolve unicode topics value <;> rfl

theorem documentsByTopic_eq :
    documentsByTopic unicode topics documents = collect (emptyGroups topics) (taggings unicode topics documents) := by
  rw [documentsByTopic, taggings, collect, foldl_flatMap]
  simp only [foldl_groupValue]
  rfl

theorem collect_spec (taggings : List (String × String)) (grouped : Grouped) (slug : String) :
    ((collect grouped taggings slug).isSome = true ↔
      (grouped slug).isSome = true ∨ ∃ path, (slug, path) ∈ taggings) ∧
    ∀ path, path ∈ (collect grouped taggings slug).getD ∅ ↔ path ∈ (grouped slug).getD ∅ ∨ (slug, path) ∈ taggings := by
  induction taggings generalizing grouped with
  | nil => simp [collect]
  | cons tagging rest ih =>
    obtain ⟨first, path⟩ := tagging
    obtain ⟨known, paths⟩ := ih (grouped.addTo first path)
    rw [show collect grouped ((first, path) :: rest) = collect (grouped.addTo first path) rest from rfl]
    by_cases same : slug = first
    · have set : grouped.addTo first path slug = some (insert path ((grouped slug).getD ∅)) := by
        rw [same]
        exact Function.update_self _ _ _
      constructor
      · rw [known, set]
        simp [same]
      · intro other
        rw [paths other, set, Option.getD_some, Finset.mem_insert, mem_cons, Prod.mk.injEq]
        tauto
    · have kept : grouped.addTo first path slug = grouped slug := Function.update_of_ne same _ _
      constructor
      · rw [known, kept]
        simp [same]
      · intro other
        rw [paths other, kept]
        simp [same]

theorem documentsByTopic_spec (integrity : Integrity unicode topics) :
    ((documentsByTopic unicode topics documents slug).isSome = true ↔
      ∃ topic ∈ topics, topic.slug = slug ∧ topic.status = .active) ∧
    ∀ path, path ∈ (documentsByTopic unicode topics documents slug).getD ∅ ↔
      ∃ document ∈ documents, document.relativePath = path ∧
        ∃ value ∈ document.topics, resolvedSlug unicode topics value = some slug := by
  obtain ⟨known, paths⟩ := collect_spec (taggings unicode topics documents) (emptyGroups topics) slug
  have first : (emptyGroups topics slug).isSome = true ↔ ∃ topic ∈ topics, topic.slug = slug ∧ topic.status = .active := by
    unfold emptyGroups
    split
    · next some_ =>
      simp only [activeTopics, any_filter, any_eq_true, Bool.and_eq_true, beq_iff_eq] at some_
      obtain ⟨topic, member, active, same⟩ := some_
      exact ⟨fun _ => ⟨topic, member, same, active⟩, fun _ => rfl⟩
    · next none_ =>
      constructor
      · intro some_
        cases some_
      · rintro ⟨topic, member, same, active⟩
        apply absurd _ none_
        simp only [activeTopics, any_filter, any_eq_true, Bool.and_eq_true, beq_iff_eq]
        exact ⟨topic, member, active, same⟩
  have empty : (emptyGroups topics slug).getD ∅ = ∅ := by
    unfold emptyGroups
    split <;> rfl
  rw [documentsByTopic_eq]
  constructor
  · rw [known, first]
    constructor
    · rintro (active | ⟨path, tagged⟩)
      · exact active
      · obtain ⟨document, _, _, value, _, resolved⟩ := mem_taggings.mp tagged
        obtain ⟨topic, names, same⟩ := (resolvedSlug_iff integrity).mp resolved
        exact ⟨topic, names.member, same, names.active integrity⟩
    · exact .inl
  · intro path
    rw [paths path, empty, mem_taggings]
    simp

/-! The documents that are tagged again. -/

theorem mem_retagValues {values : List String} :
    value ∈ retagValues unicode topics sourceSlug targetSlug values ↔
      ∃ old ∈ values, retagValue unicode topics sourceSlug targetSlug old = value := by
  have step : ∀ (values retagged : List String),
      value ∈ values.foldl (fun retagged value =>
        let replacement := retagValue unicode topics sourceSlug targetSlug value
        if retagged.contains replacement then retagged else retagged ++ [replacement]) retagged ↔
      value ∈ retagged ∨ ∃ old ∈ values, retagValue unicode topics sourceSlug targetSlug old = value := by
    intro values
    induction values with
    | nil => simp
    | cons first rest ih =>
      intro retagged
      rw [foldl_cons, ih]
      dsimp only
      split
      · next known =>
        rw [contains_eq_mem, decide_eq_true_eq] at known
        constructor
        · rintro (inside | ⟨old, member, same⟩)
          · exact .inl inside
          · exact .inr ⟨old, mem_cons_of_mem _ member, same⟩
        · rintro (inside | ⟨old, member, same⟩)
          · exact .inl inside
          · rcases mem_cons.mp member with head | tail
            · exact .inl (same ▸ head ▸ known)
            · exact .inr ⟨old, tail, same⟩
      · rw [mem_append, mem_singleton, or_assoc, eq_comm (a := value)]
        simp only [mem_cons, exists_eq_or_imp]
  exact (step values []).trans (by simp)

theorem mem_retagDocument {document : TopicDocument} :
    value ∈ (retagDocument unicode topics sourceSlug targetSlug document).topics ↔
      ∃ old ∈ document.topics, retagValue unicode topics sourceSlug targetSlug old = value := by
  rw [← mem_retagValues]
  unfold retagDocument
  dsimp only
  split
  · next same => rw [same]
  · rfl

theorem retagDocument_path {document : TopicDocument} :
    (retagDocument unicode topics sourceSlug targetSlug document).relativePath = document.relativePath := by
  unfold retagDocument
  dsimp only
  split <;> rfl

theorem retagValue_eq :
    retagValue unicode topics sourceSlug targetSlug value =
      if resolvedSlug unicode topics value = some sourceSlug then targetSlug else value := by
  unfold retagValue resolvedSlug
  cases resolve unicode topics value with
  | none => rfl
  | some resolution => simp only [Option.map_some, Option.some.injEq]

namespace Merging

theorem resolvedSlug_retagged (merging : Merging unicode topics source target) (free : NoneInto topics source.slug) :
    resolvedSlug unicode (topics.map (updatedTopic unicode source target))
        (retagValue unicode topics source.slug target.slug value) = some slug ↔
      (slug = target.slug ∧ (resolvedSlug unicode topics value = some source.slug ∨
        resolvedSlug unicode topics value = some target.slug ∨ Stray unicode topics source.slug value)) ∨
      (slug ≠ target.slug ∧ slug ≠ source.slug ∧ resolvedSlug unicode topics value = some slug) := by
  have integrity := merging.integrity
  have apart := merging.apart
  have strayless : Stray unicode topics source.slug value → resolvedSlug unicode topics value = none :=
    merging.stray_unresolved
  rw [retagValue_eq]
  by_cases moved : resolvedSlug unicode topics value = some source.slug
  · have target_ : resolvedSlug unicode topics target.slug = some target.slug :=
      (resolvedSlug_iff integrity).mpr ⟨target, .slug merging.targetKnown merging.targetActive rfl, rfl⟩
    have answer : resolvedSlug unicode (topics.map (updatedTopic unicode source target)) target.slug = some target.slug :=
      (merging.resolvedSlug_updated free).mpr (.inl ⟨target.slug, target_, (if_neg apart.symm).symm⟩)
    rw [if_pos moved, answer, moved]
    simp only [Option.some.injEq, true_or, and_true]
    constructor
    · intro same
      exact .inl same.symm
    · rintro (same | ⟨_, other, same⟩)
      · exact same.symm
      · exact absurd same.symm other
  · rw [if_neg moved, merging.resolvedSlug_updated free]
    constructor
    · rintro (⟨before, found, same⟩ | ⟨stray, same⟩)
      · have other : before ≠ source.slug := by
          intro equal
          rw [equal] at found
          exact moved found
        rw [if_neg other] at same
        subst same
        by_cases goal : slug = target.slug
        · rw [goal] at found ⊢
          exact .inl ⟨rfl, .inr (.inl found)⟩
        · exact .inr ⟨goal, other, found⟩
      · exact .inl ⟨same, .inr (.inr stray)⟩
    · rintro (⟨same, first | second | stray⟩ | ⟨_, other, found⟩)
      · exact absurd first moved
      · exact .inl ⟨target.slug, second, by rw [same, if_neg apart.symm]⟩
      · exact .inr ⟨stray, same⟩
      · exact .inl ⟨slug, found, (if_neg other).symm⟩

end Merging

def strayDocuments (unicode : UnicodeData) (topics : List Topic) (sourceSlug : String) (documents : List TopicDocument) :
    Finset String :=
  ((documents.filter fun document => document.topics.any fun value =>
    (get topics value).isNone && topicLookupKey unicode sourceSlug == topicLookupKey unicode value).map
      TopicDocument.relativePath).toFinset

theorem mem_strayDocuments {path : String} :
    path ∈ strayDocuments unicode topics sourceSlug documents ↔
      ∃ document ∈ documents, document.relativePath = path ∧ ∃ value ∈ document.topics, Stray unicode topics sourceSlug value := by
  simp only [strayDocuments, mem_toFinset, mem_map, mem_filter, any_eq_true, Bool.and_eq_true,
    Option.isNone_iff_eq_none, get_none, beq_iff_eq, Stray]
  constructor
  · rintro ⟨document, ⟨member, value, tagged, stray⟩, same⟩
    exact ⟨document, member, same, value, tagged, stray⟩
  · rintro ⟨document, member, same, value, tagged, stray⟩
    exact ⟨document, ⟨member, value, tagged, stray⟩, same⟩

theorem grouped_ext {one two : Option (Finset String)} (known : one.isSome = true ↔ two.isSome = true)
    (paths : ∀ path, path ∈ one.getD ∅ ↔ path ∈ two.getD ∅) : one = two := by
  cases one with
  | none =>
    cases two with
    | none => rfl
    | some set => simp at known
  | some first =>
    cases two with
    | none => simp at known
    | some second => exact congrArg some (Finset.ext paths)

end

/-- A merge preserves what values and tags mean. What resolved to the source resolves to the
target, what resolved to another topic still does, and of the values that named nothing only
the other spellings of the source's slug name the target now. The documents of the source, and those with such a
spelling, become documents of the target; those of the other topics stay. -/
theorem merge_preserves_meaning (unicode : UnicodeData) (registry result : TopicRegistry unicode)
    (sourceSlug targetSlug : String) (documents : List TopicDocument)
    (merged : merge unicode registry sourceSlug targetSlug = .ok result) :
    let before := documentsByTopic unicode registry.topics documents
    let behind := documentsByTopic unicode result.topics
      (documents.map (retagDocument unicode registry.topics sourceSlug targetSlug))
    modelValidate unicode result.topics = .ok () ∧
    (∀ value slug, resolvedSlug unicode registry.topics value = some slug →
      resolvedSlug unicode result.topics value = some (if slug = sourceSlug then targetSlug else slug)) ∧
    (∀ value slug, resolvedSlug unicode registry.topics value = none →
      (resolvedSlug unicode result.topics value = some slug ↔
        Stray unicode registry.topics sourceSlug value ∧ slug = targetSlug)) ∧
    (∀ value one two, Names unicode result.topics value one → Names unicode result.topics value two → one = two) ∧
    behind sourceSlug = none ∧
    (∀ slug, slug ≠ sourceSlug → slug ≠ targetSlug → behind slug = before slug) ∧
    behind targetSlug = some ((before targetSlug).getD ∅ ∪ (before sourceSlug).getD ∅ ∪
      strayDocuments unicode registry.topics sourceSlug documents) := by
  intro before behind
  obtain ⟨source, target, merging, rfl, rfl, free, same⟩ := merge_ok.mp merged
  have resolved : ∀ value slug, resolvedSlug unicode result.topics value = some slug ↔
      (∃ before, resolvedSlug unicode registry.topics value = some before ∧
        slug = if before = source.slug then target.slug else before) ∨
      (Stray unicode registry.topics source.slug value ∧ slug = target.slug) := by
    intro value slug
    rw [same]
    exact merging.resolvedSlug_updated free
  have paths : ∀ slug path, path ∈ (behind slug).getD ∅ ↔ ∃ document ∈ documents, document.relativePath = path ∧
      ∃ value ∈ document.topics, resolvedSlug unicode result.topics
        (retagValue unicode registry.topics source.slug target.slug value) = some slug := by
    intro slug path
    rw [(documentsByTopic_spec result.integrity).2 path]
    constructor
    · rintro ⟨_, known, named, value, tagged, found⟩
      obtain ⟨document, member, rfl⟩ := List.mem_map.mp known
      obtain ⟨old, inside, rfl⟩ := mem_retagDocument.mp tagged
      exact ⟨document, member, retagDocument_path.symm.trans named, old, inside, found⟩
    · rintro ⟨document, member, named, value, tagged, found⟩
      exact ⟨_, List.mem_map_of_mem member, retagDocument_path.trans named, _, mem_retagDocument.mpr ⟨value, tagged, rfl⟩, found⟩
  have groups : ∀ slug, (behind slug).isSome = true ↔ ∃ topic ∈ result.topics, topic.slug = slug ∧ topic.status = .active :=
    fun slug => (documentsByTopic_spec result.integrity).1
  -- The active topics are the former ones without the source.
  have active : ∀ slug, (∃ topic ∈ result.topics, topic.slug = slug ∧ topic.status = .active) ↔
      slug ≠ source.slug ∧ ∃ topic ∈ registry.topics, topic.slug = slug ∧ topic.status = .active := by
    intro slug
    rw [same]
    constructor
    · rintro ⟨_, known, rfl, status⟩
      obtain ⟨topic, member, rfl⟩ := List.mem_map.mp known
      obtain ⟨other, before⟩ := merging.ne_source_of_active member status
      rw [updatedTopic_slug]
      exact ⟨fun equal => other (mem_unique merging.integrity.slugs member merging.sourceKnown equal),
        topic, member, rfl, before⟩
    · rintro ⟨other, topic, member, rfl, status⟩
      have moved : topic ≠ source := fun equal => other (congrArg Topic.slug equal)
      exact ⟨_, List.mem_map_of_mem member, updatedTopic_slug, (merging.updatedTopic_status member moved).1.trans status⟩
  refine ⟨result.accepted, ?_, ?_, fun value one two => Names.unique result.integrity, ?_, ?_, ?_⟩
  · intro value slug found
    exact (resolved value _).mpr (.inl ⟨slug, found, rfl⟩)
  · intro value slug unresolved
    rw [resolved, unresolved]
    simp
  · rw [← Option.not_isSome_iff_eq_none, groups, active]
    exact fun known => known.1 rfl
  · intro slug notSource notTarget
    apply grouped_ext
    · rw [groups, active, (documentsByTopic_spec registry.integrity).1]
      exact and_iff_right notSource
    · intro path
      rw [paths, (documentsByTopic_spec registry.integrity).2 path, same]
      simp only [merging.resolvedSlug_retagged free, notSource, notTarget, false_and, false_or, ne_eq, not_false_eq_true,
        true_and]
  · apply grouped_ext
    · rw [groups, active]
      exact ⟨fun _ => rfl, fun _ => ⟨merging.apart.symm, target, merging.targetKnown, rfl, merging.targetActive⟩⟩
    · intro path
      rw [paths, Option.getD_some, Finset.mem_union, Finset.mem_union, (documentsByTopic_spec registry.integrity).2 path,
        (documentsByTopic_spec registry.integrity).2 path, mem_strayDocuments, same]
      simp only [merging.resolvedSlug_retagged free, true_and, ne_eq, not_true_eq_false, false_and, or_false]
      constructor
      · rintro ⟨document, member, named, value, tagged, first | second | stray⟩
        · exact .inl (.inr ⟨document, member, named, value, tagged, first⟩)
        · exact .inl (.inl ⟨document, member, named, value, tagged, second⟩)
        · exact .inr ⟨document, member, named, value, tagged, stray⟩
      · rintro ((⟨document, member, named, value, tagged, second⟩ | ⟨document, member, named, value, tagged, first⟩) |
          ⟨document, member, named, value, tagged, stray⟩)
        · exact ⟨document, member, named, value, tagged, .inr (.inl second)⟩
        · exact ⟨document, member, named, value, tagged, .inl first⟩
        · exact ⟨document, member, named, value, tagged, .inr (.inr stray)⟩

/-- A topic whose slug is spelled in another way by the tag of a document. -/
def respelledRegistry : TopicRegistry sampleUnicode where
  topics := [sampleTopic "pay-roll" .active none, sampleTopic "bank" .active none]
  accepted := by decide +kernel

def respelledDocument : TopicDocument := ⟨"02_knowledge/PRJ-1.md", ["payroll"]⟩

theorem respelledRegistry_merge : ∃ result, merge sampleUnicode respelledRegistry "pay-roll" "bank" = .ok result := by
  apply (merge_isOk_iff _ _ _).mpr
  · intro topic member into
    rcases mem_cons.mp member with first | rest
    · rw [first] at into
      cases into
    · rw [mem_singleton.mp rest] at into
      cases into
  · decide
  · exact ⟨sampleTopic "pay-roll" .active none, by simp [respelledRegistry], rfl, rfl⟩
  · exact ⟨sampleTopic "bank" .active none, by simp [respelledRegistry], rfl, rfl⟩

theorem merge_preserves_meaning_sample : ∃ result, merge sampleUnicode respelledRegistry "pay-roll" "bank" = .ok result ∧
    resolvedSlug sampleUnicode result.topics "pay-roll" = some "bank" := by
  obtain ⟨result, merged⟩ := respelledRegistry_merge
  refine ⟨result, merged, ?_⟩
  have kept := merge_preserves_meaning sampleUnicode respelledRegistry result "pay-roll" "bank" [respelledDocument] merged
  exact kept.2.1 "pay-roll" "pay-roll" (by decide +kernel)

/-- A tag that named nothing names the target behind the merge. -/
theorem merge_adopts_stray : ¬ ∀ (unicode : UnicodeData) (registry result : TopicRegistry unicode)
    (sourceSlug targetSlug : String) (documents : List TopicDocument),
    merge unicode registry sourceSlug targetSlug = .ok result →
      documentsByTopic unicode result.topics (documents.map (retagDocument unicode registry.topics sourceSlug targetSlug))
          targetSlug =
        some ((documentsByTopic unicode registry.topics documents targetSlug).getD ∅ ∪
          (documentsByTopic unicode registry.topics documents sourceSlug).getD ∅) := by
  intro claimed
  obtain ⟨result, merged⟩ := respelledRegistry_merge
  obtain ⟨source, target, merging, first, second, _, same⟩ := merge_ok.mp merged
  have known : source = sampleTopic "pay-roll" .active none ∧ target = sampleTopic "bank" .active none := by
    constructor
    · exact mem_unique merging.integrity.slugs merging.sourceKnown (by simp [respelledRegistry]) first
    · exact mem_unique merging.integrity.slugs merging.targetKnown (by simp [respelledRegistry]) second
  have folded := claimed sampleUnicode respelledRegistry result "pay-roll" "bank" [respelledDocument] merged
  rw [same, known.1, known.2] at folded
  revert folded
  decide +kernel

end Workctx.Topics
