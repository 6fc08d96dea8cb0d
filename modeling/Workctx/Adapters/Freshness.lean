import Mathlib.Data.Set.Function
import Workctx.Adapters.Loading

/-! What a refresh may touch: the records of the manifest go back to bytes the package shipped, or to
files a plan found untracked and recorded. -/

namespace Workctx.Adapters
open Workctx.Concurrent Workctx.Text Workctx.Domain List
variable (kit : Kit)

def recordedHash (manifest : AdapterManifest) : CanonicalPath → Option String
  | .top name => if name = "registry.yaml" then some manifest.registryHash else none
  | .skill name relative => match (manifest.skills.find? (·.name == name)).map SkillAdapterEntry.mode with
    | some (.nativeVerified files) => files.lookup relative
    | _ => none

theorem recordedHash_native {manifest : AdapterManifest} {name relative : String} {files : List (String × String)}
    (native : (manifest.skills.find? (·.name == name)).map SkillAdapterEntry.mode = some (.nativeVerified files)) :
    recordedHash manifest (.skill name relative) = files.lookup relative := by simp only [recordedHash, native]

theorem recordedHash_untracked {manifest : AdapterManifest} {name relative : String}
    (untracked : ∀ files, (manifest.skills.find? (·.name == name)).map SkillAdapterEntry.mode ≠ some (.nativeVerified files)) :
    recordedHash manifest (.skill name relative) = none := by
  simp only [recordedHash]

def Ships (packaged : CanonicalSourceSet) : CanonicalPath → Prop
  | .top _ => True
  | .skill name _ => ∃ skill, packaged.skills.find? (·.name == name) = some skill

/-- Where the bytes selected for a path come from: their old record is preserved, or they hash as the
package's file does, or they are the local file of an untracked path. -/
def Kept (files package : Directory CanonicalPath Bytes) (tracked : CanonicalPath → Prop)
    (preserved : List (CanonicalPath × String)) (path : CanonicalPath) (content : Bytes) : Prop :=
  (∃ digest, (path, digest) ∈ preserved) ∨
    (∃ packaged, (path, packaged) ∈ package ∧ kit.contentHash content = kit.contentHash packaged) ∨
      (path, content) ∈ files ∧ ¬tracked path

section
variable {kit} {files package : Directory CanonicalPath Bytes}

theorem selectFile_spec {name relative : String} {recorded : Option String} {localContent packagedContent : Option Bytes}
    {file : FileSelection} (done : selectFile kit name relative recorded localContent packagedContent = .ok file) :
    (∀ change, file.change = some change → change.path = .skill name relative ∧
      ∀ digest, change.authorityHash = some digest → recorded = some digest) ∧
      (∀ digest, file.preserved = some digest → recorded = some digest) ∧
        ∀ content, file.selected = some content → file.preserved.isSome ∨
          (∃ packaged, packagedContent = some packaged ∧ kit.contentHash content = kit.contentHash packaged) ∨
            localContent = some content ∧ recorded = none := by
  unfold selectFile at done
  cases packagedContent with
  | none =>
    cases localContent with
    | none =>
      cases done
      simp
    | some content =>
      dsimp only at done
      split at done
      · cases done
        simp
      · cases done
        cases recorded <;> simp
  | some packaged =>
    cases localContent with
    | none =>
      cases recorded with
      | none =>
        cases done
        simp
      | some digest => cases done
    | some content =>
      cases recorded with
      | none =>
        cases done
        simp
      | some digest =>
        dsimp only at done
        split at done
        · cases done
          by_cases same : kit.contentHash content = kit.contentHash packaged
          · simp [same]
          · simp [same]
        · split at done
          · next same =>
            cases done
            simp [same]
          · cases done
            simp

theorem mergeSkill_spec {template packagedSkill localSkill : CanonicalSkill} {recorded : List (String × String)}
    {selection : SkillSelection} (done : mergeSkill kit template packagedSkill localSkill recorded = .ok selection) :
    (∀ change ∈ selection.changes, ∃ relative, change.path = .skill packagedSkill.name relative ∧
      ∀ digest, change.authorityHash = some digest → recorded.lookup relative = some digest) ∧
    (∀ entry ∈ selection.preserved, ∃ relative, entry.1 = .skill packagedSkill.name relative ∧
      recorded.lookup relative = some entry.2) ∧
    ∃ skill, selection.skill = some skill ∧ skill.name = template.name ∧ skill.override = none ∧
      ∀ file ∈ skill.files, (∃ digest, (.skill packagedSkill.name file.1, digest) ∈ selection.preserved) ∨
        (∃ packaged, (file.1, packaged) ∈ packagedSkill.files ∧ kit.contentHash file.2 = kit.contentHash packaged) ∨
          file ∈ localSkill.files ∧ recorded.lookup file.1 = none := by
  obtain ⟨merged, each, later⟩ := bind_ok.mp done
  obtain ⟨skill, composed, made⟩ := bind_ok.mp later
  cases made
  have shape : ∀ pair ∈ merged, selectFile kit packagedSkill.name pair.1 (recorded.lookup pair.1)
      (localSkill.files.get pair.1) (packagedSkill.files.get pair.1) = .ok pair.2 := by
    intro pair member
    obtain ⟨relative, _, made⟩ := mem_of_mapM each member
    obtain ⟨file, selected, same⟩ := bind_ok.mp made
    cases same
    exact selected
  obtain ⟨name, override, own⟩ := mem_composed composed
  refine ⟨?_, ?_, skill, rfl, name, override, ?_⟩
  · intro change member
    obtain ⟨pair, inside, isChange⟩ := mem_filterMap.mp member
    obtain ⟨path, authority⟩ := (selectFile_spec (shape pair inside)).1 change isChange
    exact ⟨pair.1, path, authority⟩
  · intro entry member
    obtain ⟨pair, inside, isPreserved⟩ := mem_filterMap.mp member
    obtain ⟨digest, preserved, same⟩ := Option.map_eq_some_iff.mp isPreserved
    refine ⟨pair.1, congrArg Prod.fst same.symm, ?_⟩
    rw [← same]
    exact (selectFile_spec (shape pair inside)).2.1 digest preserved
  · intro file member
    obtain ⟨pair, inside, isSelected⟩ := mem_filterMap.mp (own file member)
    obtain ⟨content, selected, same⟩ := Option.map_eq_some_iff.mp isSelected
    subst same
    obtain kept | ⟨packaged, there, hash⟩ | ⟨isLocal, untracked⟩ :=
      (selectFile_spec (shape pair inside)).2.2 content selected
    · obtain ⟨digest, preserved⟩ := Option.isSome_iff_exists.mp kept
      refine .inl ⟨digest, mem_filterMap.mpr ⟨pair, inside, ?_⟩⟩
      rw [preserved]
      rfl
    · exact .inr (.inl ⟨packaged, Directory.mem_of_get there, hash⟩)
    · exact .inr (.inr ⟨Directory.mem_of_get isLocal, untracked⟩)

structure SkillFacts (kit : Kit) (files package : Directory CanonicalPath Bytes) (packaged : CanonicalSourceSet)
    (overrides : List SkillOverride) (manifest : AdapterManifest) (selection : SkillSelection) : Prop where
  changes : ∀ change ∈ selection.changes, ∀ digest, change.authorityHash = some digest →
    recordedHash manifest change.path = some digest ∧ Ships packaged change.path
  preserved : ∀ entry ∈ selection.preserved, recordedHash manifest entry.1 = some entry.2
  overridden : ∀ skill, selection.skill = some skill → skill.override.isSome → (overrideFor overrides skill.name).isSome
  kept : ∀ skill, selection.skill = some skill → skill.override = none → ∀ file ∈ skill.files,
    Kept kit files package (fun path => Ships packaged path ∧ (recordedHash manifest path).isSome) selection.preserved
      (.skill skill.name file.1) file.2

variable {skill : CanonicalSkill} {packaged : CanonicalSourceSet} {overrides : List SkillOverride} {restoreNames : List String}
  {selection : SourceSelection} {tree : Option SkillTree}

variable {tracked : CanonicalPath → Prop} {path : CanonicalPath}

theorem kept_of_owns {preserved : List (CanonicalPath × String)}
    (owns : Owns (files ++ package) skill) (without : skill.override = none)
    (untracked : ∀ relative, ¬tracked (.skill skill.name relative)) :
    ∀ file ∈ skill.files, Kept kit files package tracked preserved (.skill skill.name file.1) file.2 := by
  intro file member
  cases mem_append.mp (owns.mem without member) with
  | inl here => exact .inr (.inr ⟨here, untracked file.1⟩)
  | inr there => exact .inr (.inl ⟨file.2, there, rfl⟩)

theorem kept_of_packaged {preserved : List (CanonicalPath × String)} (owns : Owns package skill) (without : skill.override = none) :
    ∀ file ∈ skill.files, Kept kit files package tracked preserved (.skill skill.name file.1) file.2 := by
  intro file member
  exact .inr (.inl ⟨file.2, owns.mem without member, rfl⟩)

theorem found_skill {skills : List CanonicalSkill} {name : String}
    (found : skills.find? (·.name == name) = some skill) : skill ∈ skills ∧ skill.name = name :=
  ⟨mem_of_find?_eq_some found, by simpa using find?_some found⟩

theorem selectSkill_facts {localSources : CanonicalSourceSet}
    {manifest : AdapterManifest} {usePackaged : Bool} {registrySkill : CanonicalSkill}
    {selection : SkillSelection} (sourced : Sourced kit files package overrides localSources)
    (shipped : ∀ skill ∈ packaged.skills, skill.override = none ∧ Owns package skill)
    (done : selectSkill kit localSources packaged manifest restoreNames usePackaged registrySkill = .ok selection) :
    SkillFacts kit files package packaged overrides manifest selection := by
  have localSkillFacts : ∀ {changed : SkillSelection} {skill : CanonicalSkill},
      localSources.skills.find? (·.name == registrySkill.name) = some skill →
      (∀ relative, ¬(Ships packaged (.skill registrySkill.name relative) ∧
        (recordedHash manifest (.skill registrySkill.name relative)).isSome)) →
      changed = ⟨some skill, [], [], []⟩ →
      SkillFacts kit files package packaged overrides manifest changed := by
    intro changed skill found untracked same
    obtain ⟨member, name⟩ := found_skill found
    subst same
    refine ⟨by simp, by simp, ?_, ?_⟩
    · intro other isSkill isOverridden
      cases isSkill
      exact sourced.overridden skill member isOverridden ▸ isOverridden
    · intro other isSkill without
      cases isSkill
      exact kept_of_owns (sourced.skills skill member) without (name ▸ untracked)
  have packagedFacts : ∀ {changed : SkillSelection} {skill : CanonicalSkill}, skill ∈ packaged.skills →
      (∀ change ∈ changed.changes, change.authorityHash = none) → changed.preserved = [] → changed.skill = some skill →
      SkillFacts kit files package packaged overrides manifest changed := by
    intro changed skill member fresh nothing isSkill
    obtain ⟨without, owns⟩ := shipped skill member
    refine ⟨?_, by simp [nothing], ?_, ?_⟩
    · intro change inside digest authority
      rw [fresh change inside] at authority
      cases authority
    · intro other same isOverridden
      rw [isSkill] at same
      cases same
      rw [without] at isOverridden
      cases isOverridden
    · intro other same _
      rw [isSkill] at same
      cases same
      exact kept_of_packaged owns without
  unfold selectSkill at done
  dsimp only at done
  cases there : packaged.skills.find? (·.name == registrySkill.name) with
  | none =>
    rw [there] at done
    have unshipped : ∀ relative, ¬(Ships packaged (.skill registrySkill.name relative) ∧
        (recordedHash manifest (.skill registrySkill.name relative)).isSome) := by
      intro relative both
      obtain ⟨skill, found⟩ := both.1
      rw [there] at found
      cases found
    cases found : localSources.skills.find? (·.name == registrySkill.name) with
    | none =>
      rw [found] at done
      cases done
      exact ⟨by simp, by simp, by simp, by simp⟩
    | some skill =>
      rw [found] at done
      exact localSkillFacts found unshipped (Except.ok.inj done).symm
  | some packagedSkill =>
    obtain ⟨member, name⟩ := found_skill there
    rw [there] at done
    dsimp only at done
    cases chosen : overrideFor localSources.overrides registrySkill.name with
    | some override =>
      rw [chosen] at done
      obtain ⟨skill, composed, made⟩ := bind_ok.mp done
      cases made
      obtain ⟨sameName, isOverride, _⟩ := mem_composed composed
      refine ⟨by simp, by simp, ?_, ?_⟩
      · intro other same _
        cases same
        rw [sourced.active] at chosen
        rw [sameName, name, chosen]
        rfl
      · intro other same without
        cases same
        rw [isOverride] at without
        cases without
    | none =>
      rw [chosen] at done
      dsimp only at done
      split at done
      · cases done
        exact packagedFacts member (by simp) rfl rfl
      · cases found : localSources.skills.find? (·.name == registrySkill.name) with
        | none =>
          rw [found] at done
          cases done
          refine packagedFacts member ?_ rfl rfl
          intro change inside
          obtain ⟨_, _, same⟩ := mem_map.mp inside
          exact same ▸ rfl
        | some localSkill =>
          rw [found] at done
          dsimp only at done
          obtain ⟨localMember, localName⟩ := found_skill found
          split at done
          · next recorded isNative =>
            have record : ∀ relative, recordedHash manifest (.skill packagedSkill.name relative) = recorded.lookup relative :=
              fun relative => name ▸ recordedHash_native isNative
            obtain ⟨changes, preserved, skill, isSkill, skillName, without, kept⟩ := mergeSkill_spec done
            have sameName : skill.name = packagedSkill.name := by
              rw [skillName]
              split
              · rfl
              · exact name.symm
            refine ⟨?_, ?_, ?_, ?_⟩
            · intro change inside digest authority
              obtain ⟨relative, path, recordedAs⟩ := changes change inside
              rw [path, record, recordedAs digest authority]
              exact ⟨rfl, packagedSkill, name.symm ▸ there⟩
            · intro entry inside
              obtain ⟨relative, path, recordedAs⟩ := preserved entry inside
              rw [path, record, recordedAs]
            · intro other same isOverridden
              rw [isSkill] at same
              cases same
              rw [without] at isOverridden
              cases isOverridden
            · intro other same _ file inside
              rw [isSkill] at same
              cases same
              rw [sameName]
              obtain ⟨digest, isPreserved⟩ | ⟨packagedContent, shippedFile, hash⟩ | ⟨isLocal, untracked⟩ := kept file inside
              · exact .inl ⟨digest, isPreserved⟩
              · obtain ⟨plain, owns⟩ := shipped packagedSkill member
                exact .inr (.inl ⟨packagedContent, owns.mem plain shippedFile, hash⟩)
              · have plain : localSkill.override = none := by
                  by_contra isOverridden
                  have same := sourced.overridden localSkill localMember (Option.isSome_iff_ne_none.mpr isOverridden)
                  rw [localName, ← sourced.active, chosen] at same
                  exact isOverridden same
                have place := (sourced.skills localSkill localMember).mem plain isLocal
                rw [localName, ← name] at place
                cases mem_append.mp place with
                | inl here =>
                  refine .inr (.inr ⟨here, ?_⟩)
                  intro both
                  rw [record, untracked] at both
                  cases both.2
                | inr packaged => exact .inr (.inl ⟨file.2, packaged, rfl⟩)
          · next mode notNative =>
            have untracked : ∀ relative, recordedHash manifest (.skill registrySkill.name relative) = none := fun relative =>
              recordedHash_untracked notNative
            refine localSkillFacts found ?_ (Except.ok.inj done).symm
            intro relative both
            rw [untracked relative] at both
            cases both.2

def DeclaresCustom (kit : Kit) (content : Bytes) : Prop :=
  ∃ registry, kit.registryDefinition content = .ok registry ∧ registry.customSkills ≠ []

theorem refreshRegistrySkills_result {own shipped content : Bytes}
    (done : refreshRegistrySkills kit own shipped = .ok content) : content = shipped ∨ DeclaresCustom kit content := by
  obtain ⟨localRegistry, _, later⟩ := bind_ok.mp done
  obtain ⟨packaged, _, rest⟩ := bind_ok.mp later
  split at rest
  · cases rest
  · split at rest
    · cases rest
      exact .inl rfl
    · next mixed =>
      obtain ⟨refreshed, definition, last⟩ := bind_ok.mp rest
      split at last
      · next same =>
        cases last
        refine .inr ⟨refreshed, definition, ?_⟩
        rw [same]
        intro empty
        rw [empty] at mixed
        exact mixed rfl
      · cases last

/-- A registry the selection writes or keeps when it is not preserved as the operator's. -/
inductive RegistrySource (kit : Kit) (files package : Directory CanonicalPath Bytes) (fresh : Prop) (content : Bytes) : Prop
  | packaged (shipped : (registryPath, content) ∈ package)
  | adopted (here : (registryPath, content) ∈ files) (first : fresh)
  | mixed (own shipped : Bytes) (here : (registryPath, own) ∈ files) (there : (registryPath, shipped) ∈ package)
      (refreshed : refreshRegistrySkills kit own shipped = .ok content) (declares : DeclaresCustom kit content)

/-- What the selection says about records and bytes; `fresh` before the first install. -/
structure SelectionFacts (kit : Kit) (files package : Directory CanonicalPath Bytes) (packaged : CanonicalSourceSet)
    (overrides : List SkillOverride) (fresh : Prop) (record : CanonicalPath → Option String)
    (selection : SourceSelection) : Prop where
  changes : ∀ change ∈ selection.changes, ∀ digest, change.authorityHash = some digest →
    record change.path = some digest ∧ Ships packaged change.path ∨
      change.path = registryPath ∧ ∃ own, files.get registryPath = some own ∧ DeclaresCustom kit own
  preserved : ∀ entry ∈ selection.preservedSourceHashes, record entry.1 = some entry.2
  overridden : ∀ skill ∈ selection.sources.skills, skill.override.isSome → (overrideFor overrides skill.name).isSome
  kept : ∀ skill ∈ selection.sources.skills, skill.override = none → ∀ file ∈ skill.files,
    Kept kit files package (fun path => Ships packaged path ∧ (record path).isSome) selection.preservedSourceHashes
      (.skill skill.name file.1) file.2
  registry : (∃ digest, selection.preservedRegistryHash = some digest ∧ record registryPath = some digest) ∨
    selection.preservedRegistryHash = none ∧ RegistrySource kit files package fresh selection.sources.registryContent

theorem Kept.mono {fewer more : List (CanonicalPath × String)}
    {content : Bytes} (kept : Kept kit files package tracked fewer path content) (inside : fewer ⊆ more) :
    Kept kit files package tracked more path content := by
  obtain ⟨digest, preserved⟩ | others := kept
  · exact .inl ⟨digest, inside preserved⟩
  · exact .inr others

theorem Sourced.declaresCustom {sources : CanonicalSourceSet}
    (sourced : Sourced kit files package overrides sources) (mixed : sources.customSkillNames.isEmpty = false) :
    DeclaresCustom kit sources.registryContent := by
  obtain ⟨name, member⟩ := exists_mem_of_ne_nil _ (by simpa using mixed : sources.customSkillNames ≠ [])
  obtain ⟨skill, inside, _⟩ := mem_map.mp member
  obtain ⟨listed, custom⟩ := mem_filter.mp inside
  exact ⟨sources.registry, sourced.definition, sourced.custom skill listed custom⟩

theorem Sourced.facts {sources : CanonicalSourceSet} {fresh : Prop}
    {record : CanonicalPath → Option String}
    (sourced : Sourced kit files package overrides sources) (untracked : files = [] ∨ ∀ path, record path = none)
    (first : files = [] ∨ fresh) :
    SelectionFacts kit files package packaged overrides fresh record ⟨sources, [], [], [], none, restoreNames⟩ := by
  refine ⟨by simp, by simp, ?_, ?_, .inr ⟨rfl, ?_⟩⟩
  · intro skill member isOverridden
    exact sourced.overridden skill member isOverridden ▸ isOverridden
  · intro skill member without file inside
    cases mem_append.mp ((sourced.skills skill member).mem without inside) with
    | inr there => exact .inr (.inl ⟨file.2, there, rfl⟩)
    | inl here =>
      refine .inr (.inr ⟨here, ?_⟩)
      intro both
      cases untracked with
      | inl empty =>
        rw [empty] at here
        cases here
      | inr nothing =>
        rw [nothing] at both
        cases both.2
  · cases mem_append.mp sourced.registry with
    | inr there => exact .packaged there
    | inl here =>
      cases first with
      | inl empty =>
        rw [empty] at here
        cases here
      | inr isFresh => exact .adopted here isFresh

theorem selectCodexContextSources_facts {localSources : CanonicalSourceSet}
    {manifest : AdapterManifest} {fresh : Prop}
    (sourced : Sourced kit files package overrides localSources)
    (origin : localSources.origin ≠ .local → files = [])
    (own : localSources.origin = .local → files.get registryPath = some localSources.registryContent)
    (there : (registryPath, packaged.registryContent) ∈ package)
    (shipped : ∀ skill ∈ packaged.skills, skill.override = none ∧ Owns package skill)
    (placed : ∀ skill ∈ localSources.skills, skill.custom = false → packaged.skills.any (·.name == skill.name) = true)
    (done : selectCodexContextSources kit localSources packaged manifest restoreNames = .ok selection) :
    SelectionFacts kit files package packaged overrides fresh (recordedHash manifest) selection := by
  unfold selectCodexContextSources at done
  split at done
  · next notLocal =>
    cases done
    exact sourced.facts (.inl (origin notLocal)) (.inl (origin notLocal))
  · next isLocal =>
    rw [not_not] at isLocal
    dsimp only at done
    obtain ⟨states, _, later⟩ := bind_ok.mp done
    obtain ⟨effective, refreshed, rest⟩ := bind_ok.mp later
    obtain ⟨selections, each, last⟩ := bind_ok.mp rest
    obtain ⟨registry, _, made⟩ := bind_ok.mp last
    cases made
    have facts : ∀ selection ∈ selections,
        SkillFacts kit files package packaged overrides manifest selection := by
      intro selection member
      obtain ⟨skill, _, made⟩ := mem_of_mapM each member
      exact selectSkill_facts sourced shipped made
    have chosen : ∀ skill ∈ (selections.filterMap (·.skill)).insertionSort fun first second => first.name ≤ second.name,
        ∃ selection ∈ selections, selection.skill = some skill := by
      intro skill member
      exact mem_filterMap.mp ((perm_insertionSort _ _).mem_iff.mp member)
    refine ⟨?_, ?_, ?_, ?_, ?_⟩
    · intro change member digest authority
      cases mem_append.mp ((perm_insertionSort _ _).mem_iff.mp member) with
      | inl isRegistry =>
        split at isRegistry
        · cases mem_singleton.mp isRegistry
          dsimp only at authority
          cases mixed : localSources.customSkillNames.isEmpty with
          | true =>
            rw [mixed] at authority
            exact .inl ⟨authority, trivial⟩
          | false => exact .inr ⟨rfl, _, own isLocal, sourced.declaresCustom mixed⟩
        · cases isRegistry
      | inr ofSkill =>
        obtain ⟨selection, listed, inside⟩ := mem_flatMap.mp ofSkill
        exact .inl ((facts selection listed).changes change inside digest authority)
    · intro entry member
      obtain ⟨selection, listed, inside⟩ := mem_flatMap.mp member
      exact (facts selection listed).preserved entry inside
    · intro skill member isOverridden
      obtain ⟨selection, listed, isSkill⟩ := chosen skill member
      exact (facts selection listed).overridden skill isSkill isOverridden
    · intro skill member without file inside
      obtain ⟨selection, listed, isSkill⟩ := chosen skill member
      refine ((facts selection listed).kept skill isSkill without file inside).mono ?_
      exact fun entry preserved => mem_flatMap.mpr ⟨selection, listed, preserved⟩
    · cases matched : registryMatches kit localSources packaged manifest.registryHash with
      | false => exact .inl ⟨manifest.registryHash, rfl, rfl⟩
      | true =>
        refine .inr ⟨rfl, ?_⟩
        have nothing : (localSources.skills.filter fun skill => !skill.custom).filter
            (fun skill => !packaged.skills.any (·.name == skill.name)) = [] := by
          rw [filter_eq_nil_iff]
          intro skill member
          obtain ⟨listed, plain⟩ := mem_filter.mp member
          rw [placed skill listed (by simpa using plain)]
          simp
        rw [matched, nothing] at refreshed
        cases refreshRegistrySkills_result refreshed with
        | inl same => exact .packaged (same ▸ there)
        | inr declares => exact .mixed _ _ (Directory.mem_of_get (own isLocal)) there refreshed declares

def recordOf (manifest : Option AdapterManifest) (path : CanonicalPath) : Option String :=
  manifest.bind fun manifest => recordedHash manifest path

theorem loadSourceSelection_facts {overrideFiles : List (String × Bytes)}
    {manifest : Option AdapterManifest}
    (done : loadSourceSelection kit tree package overrideFiles manifest = .ok selection) :
    ∃ overrides packaged, loadSkillOverrides kit package overrideFiles = .ok overrides ∧
      loadPackagedSources kit package [] = .ok packaged ∧
      SelectionFacts kit (treeFiles tree) package packaged overrides (manifest = none) (recordOf manifest) selection := by
  obtain ⟨overrides, isOverrides, later⟩ := bind_ok.mp done
  obtain ⟨loaded, isLoaded, later⟩ := bind_ok.mp later
  obtain ⟨localSources, isLocal, later⟩ := bind_ok.mp later
  obtain ⟨packaged, isPackaged, rest⟩ := bind_ok.mp later
  obtain ⟨origin, own, loadedSourced⟩ := loadCanonicalSources_from isLoaded
  obtain ⟨sameOrigin, sameRegistry, sourced⟩ := restorePackagedSkillSources_from loadedSourced isLocal
  obtain ⟨_, there, _, _, _, shipped⟩ := loadPackagedSources_from isPackaged
  refine ⟨overrides, packaged, isOverrides, isPackaged, ?_⟩
  dsimp only at rest
  split at rest
  · cases rest
  · next misplaced =>
    cases manifest with
    | none =>
      cases rest
      exact sourced.facts (.inr fun _ => rfl) (.inr rfl)
    | some manifest =>
      refine selectCodexContextSources_facts sourced ?_ ?_ (Directory.mem_of_get there) ?_ ?_ rest
      · intro notLocal
        rw [sameOrigin] at notLocal
        have isPackage : loaded.origin = .packaged := by
          cases same : loaded.origin with
          | packaged => rfl
          | «local» => exact absurd same notLocal
        rw [origin.mp isPackage]
        rfl
      · intro isLocal
        rw [sameRegistry]
        exact own (sameOrigin ▸ isLocal)
      · intro skill member
        obtain ⟨_, override, owns⟩ := shipped skill member
        exact ⟨override, owns⟩
      · intro skill member plain
        by_contra absent
        have empty := List.isEmpty_iff.mp (Bool.eq_true_of_not_eq_false misplaced)
        have inside : skill ∈ ([] : List CanonicalSkill) := by
          rw [← empty]
          exact mem_filter.mpr ⟨member, by simp [plain, absent]⟩
        cases inside

theorem buildManifest_record {fresh : Prop}
    {record : CanonicalPath → Option String} {digest : String}
    (facts : SelectionFacts kit files package packaged overrides fresh record selection)
    (recorded : recordedHash (buildManifest kit selection) path = some digest) :
    record path = some digest ∨ ∃ content, digest = kit.contentHash content ∧
      ((path, content) ∈ package ∨ ((path, content) ∈ files ∧ ¬(Ships packaged path ∧ (record path).isSome) ∧ path ≠ registryPath) ∨
        path = registryPath ∧ RegistrySource kit files package fresh content) := by
  cases path with
  | top name =>
    unfold recordedHash at recorded
    dsimp only at recorded
    split at recorded
    · next isRegistry =>
      subst isRegistry
      cases recorded
      obtain ⟨digest, preserved, same⟩ | ⟨without, source⟩ := facts.registry
      · left
        unfold buildManifest
        dsimp only
        rw [preserved]
        exact same
      · refine .inr ⟨selection.sources.registryContent, ?_, .inr (.inr ⟨rfl, source⟩)⟩
        unfold buildManifest
        dsimp only
        rw [without]
        rfl
    · cases recorded
  | skill name relative =>
    cases isMode : ((buildManifest kit selection).skills.find? (·.name == name)).map SkillAdapterEntry.mode with
    | none =>
      rw [recordedHash_untracked (by simp [isMode])] at recorded
      cases recorded
    | some mode =>
      obtain ⟨entry, found, sameMode⟩ := Option.map_eq_some_iff.mp isMode
      obtain ⟨skill, member, made⟩ := mem_map.mp (mem_of_find?_eq_some found)
      have sameName : skill.name = name := by
        have named : entry.name = name := by simpa using find?_some found
        rw [← named, ← made]
      subst sameName
      subst made
      subst sameMode
      dsimp only at isMode
      cases override : skill.override with
      | some override =>
        rw [override] at isMode
        rw [recordedHash_untracked (by simp [isMode])] at recorded
        cases recorded
      | none =>
        rw [override] at isMode
        rw [recordedHash_native isMode] at recorded
        obtain ⟨file, inside, same⟩ := mem_map.mp
          ((perm_insertionSort _ _).mem_iff.mp (Directory.mem_of_get recorded))
        obtain ⟨sameRelative, sameDigest⟩ := Prod.mk.inj same
        subst sameRelative
        cases preserved : selection.preservedSourceHashes.lookup (.skill skill.name file.1) with
        | some old =>
          rw [preserved] at sameDigest
          cases sameDigest
          exact .inl (facts.preserved _ (Directory.mem_of_get preserved))
        | none =>
          rw [preserved] at sameDigest
          right
          obtain ⟨old, isOld⟩ | ⟨packagedContent, there, hash⟩ | ⟨here, untracked⟩ := facts.kept skill member override file inside
          · exact absurd (mem_map.mpr ⟨_, isOld, rfl⟩) (Directory.get_eq_none.mp preserved)
          · exact ⟨packagedContent, sameDigest.symm.trans hash, .inl there⟩
          · exact ⟨file.2, sameDigest.symm, .inr (.inl ⟨here, untracked, by simp [registryPath]⟩)⟩

/-! The mutations of a plan. -/

/-- A plan that changes a file there is rests on the record of the file, or writes an override. -/
theorem prepareInstallOrRepair_facts {overrideFiles : List (String × Bytes)}
    {manifest : Option AdapterManifest} {mutations : List FileMutation} {new : AdapterManifest}
    (done : prepareInstallOrRepair kit tree package overrideFiles manifest = .ok (.mutating mutations new)) :
    ∃ selection, loadSourceSelection kit tree package overrideFiles manifest = .ok selection ∧
      new = buildManifest kit selection ∧
      ∀ mutation ∈ mutations, ∀ content, (treeFiles tree).get mutation.path = some content →
        (∃ change ∈ selection.changes, change.path = mutation.path ∧ change.authorityHash = some (kit.contentHash content)) ∨
          (∃ skill ∈ selection.sources.skills, skill.override.isSome ∧ mutation.path = primaryPath skill.name) ∨
            mutation.path ∈ (generatedInventory manifest).map Prod.fst := by
  obtain ⟨selection, isSelection, later⟩ := bind_ok.mp done
  dsimp only at later
  split at later
  · cases later
  · next authority =>
    split at later
    · cases later
    · next unseeded =>
      cases later
      refine ⟨selection, isSelection, rfl, ?_⟩
      intro mutation member content there
      have observed : ((treeFiles tree).get mutation.path).map kit.contentHash = some (kit.contentHash content) := by
        rw [there]
        rfl
      rw [mem_append, mem_append, mem_append] at member
      obtain ((isCanonical | isSeed) | isOutput) | isObsolete := member
      · obtain ⟨change, changed, same⟩ := mem_map.mp isCanonical
        have listed := (mem_filter.mp changed).1
        subst same
        refine .inl ⟨change, listed, rfl, ?_⟩
        have intact : (selection.changes.filter fun change =>
            ((treeFiles tree).get change.path).map kit.contentHash != change.authorityHash) = [] := by
          simp only [Bool.and_eq_false_iff, not_or, Bool.not_eq_false, List.isEmpty_iff] at authority
          exact authority.1.2
        have holds := filter_eq_nil_iff.mp intact change listed
        rw [← observed]
        simpa using (by simpa using holds : ((treeFiles tree).get change.path).map kit.contentHash = change.authorityHash).symm
      · have absent := find?_eq_none.mp unseeded mutation isSeed
        rw [observed] at absent
        exact absurd rfl absent
      · obtain ⟨output, desired, same⟩ := mem_map.mp isOutput
        obtain ⟨skill, overridden, isDesired⟩ := mem_map.mp (mem_filter.mp desired).1
        obtain ⟨inside, isOverridden⟩ := mem_filter.mp overridden
        refine .inr (.inl ⟨skill, inside, isOverridden, ?_⟩)
        rw [← same, ← isDesired]
      · obtain ⟨output, listed, made⟩ := mem_filterMap.mp isObsolete
        have inside := mem_map_of_mem (f := Prod.fst) (mem_filter.mp listed).1
        right
        right
        split at made
        · split at made
          · cases made
          · cases made
            exact inside
        · cases made
          exact inside

theorem get_applyMutation {tree : SkillTree} {mutation : FileMutation} (apart : mutation.path ≠ path) :
    (applyMutation tree mutation).files.get path = tree.files.get path := by
  unfold applyMutation
  cases mutation.content with
  | some content => exact Directory.get_put_of_ne (Ne.symm apart)
  | none => exact Directory.get_erase_of_ne (Ne.symm apart)

theorem get_applyMutations {mutations : List FileMutation}
    (apart : ∀ mutation ∈ mutations, mutation.path ≠ path) :
    (treeFiles (applyMutations tree mutations)).get path = (treeFiles tree).get path := by
  unfold applyMutations
  split
  · rfl
  · have folded : ∀ (mutations : List FileMutation) (tree : SkillTree), (∀ mutation ∈ mutations, mutation.path ≠ path) →
        (mutations.foldl applyMutation tree).files.get path = tree.files.get path := by
      intro mutations
      induction mutations with
      | nil => exact fun _ _ => rfl
      | cons first rest ih =>
        intro tree apart
        rw [foldl_cons, ih _ fun mutation member => apart mutation (mem_cons_of_mem first member)]
        exact get_applyMutation (apart first mem_cons_self)
    refine (folded mutations _ apart).trans ?_
    cases tree <;> rfl
end
end Workctx.Adapters
