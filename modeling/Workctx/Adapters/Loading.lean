import Workctx.Adapters.Refresh

/-! The loaded skills come from the files on disk and in the package. -/

namespace Workctx.Adapters
open Workctx.Concurrent Workctx.Text Workctx.Domain List
variable {kit : Kit} {files package : Directory CanonicalPath Bytes}

variable {content : Bytes} {sources : CanonicalSourceSet}

theorem mem_filesOf {name relative : String} (member : (relative, content) ∈ filesOf files name) :
    (.skill name relative, content) ∈ files := by
  unfold filesOf at member
  obtain ⟨⟨path, bytes⟩, inside, here⟩ := mem_filterMap.mp member
  cases path with
  | top other => cases here
  | skill other below =>
    dsimp only at here
    split at here
    · next same =>
      cases here
      exact same ▸ inside
    · cases here

variable {resources : List CanonicalResource} {skill : CanonicalSkill} {overrides : List SkillOverride}
  {registry : RegistryDefinition}

theorem mem_resourcesOf {name : String} {own : Directory String Bytes}
    (read : resourcesOf kit name own = .ok resources) {resource : CanonicalResource} (member : resource ∈ resources) :
    (resource.relativePath, resource.content) ∈ own := by
  obtain ⟨found, each, ordered⟩ := bind_ok.mp read
  unfold sortedResourceInventory at ordered
  dsimp only at ordered
  split at ordered
  · cases ordered
    obtain ⟨entry, inside, made⟩ := mem_of_mapM each ((perm_insertionSort _ found).mem_iff.mp member)
    obtain ⟨_, _, same⟩ := bind_ok.mp made
    cases same
    exact (mem_filter.mp inside).1
  · cases ordered

theorem mem_composed {template : CanonicalSkill} {own : Directory String Bytes} {override : Option SkillOverride}
    (composed : composeCanonicalSkill kit template own override = .ok skill) :
    skill.name = template.name ∧ skill.override = override ∧ ∀ file ∈ skill.files, file ∈ own := by
  unfold composeCanonicalSkill at composed
  cases primary : own.get "SKILL.md" with
  | none =>
    rw [primary] at composed
    cases composed
  | some content =>
    rw [primary] at composed
    obtain ⟨resources, read, later⟩ := bind_ok.mp composed
    obtain ⟨_, _, made⟩ := bind_ok.mp later
    cases made
    refine ⟨rfl, rfl, ?_⟩
    intro file member
    cases mem_cons.mp member with
    | inl same => exact same ▸ Directory.mem_of_get primary
    | inr below =>
      obtain ⟨resource, inside, same⟩ := mem_map.mp below
      exact same ▸ mem_resourcesOf read inside

def ReadFrom (files : Directory CanonicalPath Bytes) (name : String) (content : Bytes)
    (resources : List CanonicalResource) : Prop :=
  (primaryPath name, content) ∈ files ∧
    ∀ resource ∈ resources, (.skill name resource.relativePath, resource.content) ∈ files

theorem readSkill_from {name : String}
    (read : readSkill kit files name = .ok (some (content, resources))) : ReadFrom files name content resources := by
  unfold readSkill at read
  cases primary : (filesOf files name).get "SKILL.md" with
  | none =>
    rw [primary] at read
    cases read
  | some bytes =>
    rw [primary] at read
    obtain ⟨found, own, same⟩ := bind_ok.mp read
    cases same
    exact ⟨mem_filesOf (Directory.mem_of_get primary), fun resource inside => mem_filesOf (mem_resourcesOf own inside)⟩

structure Owns (files : Directory CanonicalPath Bytes) (skill : CanonicalSkill) : Prop where
  primary : skill.override = none → (primaryPath skill.name, skill.content) ∈ files
  resources : ∀ resource ∈ skill.resources, (.skill skill.name resource.relativePath, resource.content) ∈ files

theorem Owns.mem (owns : Owns files skill) (without : skill.override = none)
    {file : String × Bytes} (member : file ∈ skill.files) : (.skill skill.name file.1, file.2) ∈ files := by
  cases mem_cons.mp member with
  | inl same => exact same ▸ owns.primary without
  | inr below =>
    obtain ⟨resource, inside, same⟩ := mem_map.mp below
    exact same ▸ owns.resources resource inside

theorem Owns.mono (owns : Owns files skill) (inside : files ⊆ package) : Owns package skill :=
  ⟨fun without => inside (owns.primary without), fun resource member => inside (owns.resources resource member)⟩

theorem assembleSkill_from {custom : Bool} {entry : String × String} {primary : Bytes} (read : ReadFrom files entry.1 primary resources)
    (assembled : assembleSkill kit custom overrides entry primary resources = .ok skill) :
    skill.name = entry.1 ∧ skill.custom = custom ∧ skill.override = overrideFor overrides skill.name ∧ Owns files skill := by
  obtain ⟨_, _, made⟩ := bind_ok.mp assembled
  cases made
  refine ⟨rfl, rfl, rfl, ?_, read.2⟩
  intro without
  dsimp only at without ⊢
  rw [without]
  exact read.1

structure Sourced (kit : Kit) (files package : Directory CanonicalPath Bytes) (overrides : List SkillOverride)
    (sources : CanonicalSourceSet) : Prop where
  registry : (registryPath, sources.registryContent) ∈ files ++ package
  definition : kit.registryDefinition sources.registryContent = .ok sources.registry
  active : sources.overrides = overrides
  overridden : ∀ skill ∈ sources.skills, skill.override.isSome → skill.override = overrideFor overrides skill.name
  skills : ∀ skill ∈ sources.skills, Owns (files ++ package) skill
  custom : ∀ skill ∈ sources.skills, skill.custom = true → sources.registry.customSkills ≠ []

theorem packagedSkill_from {entry : String × String}
    (read : packagedSkill kit package overrides entry = .ok skill) :
    skill.name = entry.1 ∧ skill.custom = false ∧ skill.override = overrideFor overrides skill.name ∧ Owns package skill := by
  obtain ⟨found, readable, later⟩ := bind_ok.mp read
  cases found with
  | none => cases later
  | some pair =>
    obtain ⟨primary, resources⟩ := pair
    exact assembleSkill_from (readSkill_from readable) later

theorem packagedRegistry_from
    (read : packagedRegistry kit package = .ok (content, registry)) :
    package.get registryPath = some content ∧ kit.registryDefinition content = .ok registry := by
  unfold packagedRegistry at read
  cases there : package.get registryPath with
  | none =>
    rw [there] at read
    cases read
  | some bytes =>
    rw [there] at read
    obtain ⟨definition, valid, same⟩ := bind_ok.mp read
    cases same
    exact ⟨rfl, valid⟩

theorem loadPackagedSources_from
    (loaded : loadPackagedSources kit package overrides = .ok sources) :
    sources.origin = .packaged ∧ package.get registryPath = some sources.registryContent ∧
      kit.registryDefinition sources.registryContent = .ok sources.registry ∧
      sources.registry.customSkills = [] ∧ sources.overrides = overrides ∧
      ∀ skill ∈ sources.skills, skill.custom = false ∧ skill.override = overrideFor overrides skill.name ∧
        Owns package skill := by
  obtain ⟨⟨content, registry⟩, read, later⟩ := bind_ok.mp loaded
  obtain ⟨there, definition⟩ := packagedRegistry_from read
  dsimp only at later
  split at later
  · cases later
  · next plain =>
    obtain ⟨skills, each, made⟩ := bind_ok.mp later
    cases made
    have empty : registry.customSkills = [] := by simpa using plain
    refine ⟨rfl, there, definition, empty, rfl, ?_⟩
    intro skill member
    obtain ⟨entry, _, made⟩ := mem_of_mapM each member
    exact (packagedSkill_from made).2

theorem localRegistry_from {tree : SkillTree}
    (read : localRegistry kit tree = .ok (content, registry)) :
    tree.files.get registryPath = some content ∧ kit.registryDefinition content = .ok registry := by
  unfold localRegistry at read
  cases there : tree.files.get registryPath with
  | none =>
    rw [there] at read
    cases read
  | some bytes =>
    rw [there] at read
    obtain ⟨definition, valid, rest⟩ := bind_ok.mp read
    dsimp only at rest
    split at rest
    · cases rest
    · cases rest
      exact ⟨rfl, valid⟩

theorem localSkills_from {tree : SkillTree}
    {read : List ((String × String) × Bool × Bytes × List CanonicalResource)}
    (found : localSkills kit tree registry = .ok read) {entry : (String × String) × Bool × Bytes × List CanonicalResource}
    (member : entry ∈ read) :
    ReadFrom tree.files entry.1.1 entry.2.2.1 entry.2.2.2 ∧ (entry.2.1 = true → registry.customSkills ≠ []) := by
  obtain ⟨pairs, each, rest⟩ := bind_ok.mp found
  dsimp only at rest
  split at rest
  · cases rest
  · cases rest
    obtain ⟨⟨declared, files⟩, inside, made⟩ := mem_filterMap.mp member
    obtain ⟨listed, isListed, readable⟩ := mem_of_mapM each inside
    obtain ⟨_, readable, same⟩ := bind_ok.mp readable
    cases same
    dsimp only at made
    cases files with
    | none => cases made
    | some own =>
      cases made
      refine ⟨readSkill_from readable, ?_⟩
      intro custom
      cases mem_append.mp isListed with
      | inl packaged =>
        obtain ⟨_, _, same⟩ := mem_map.mp packaged
        rw [← same] at custom
        cases custom
      | inr operator =>
        obtain ⟨_, inside, _⟩ := mem_map.mp operator
        exact ne_nil_of_mem inside

theorem loadCanonicalSources_from {tree : Option SkillTree}
    (loaded : loadCanonicalSources kit tree package overrides = .ok sources) :
    (sources.origin = .packaged ↔ tree = none) ∧
      (sources.origin = .local → (treeFiles tree).get registryPath = some sources.registryContent) ∧
      Sourced kit (treeFiles tree) package overrides sources := by
  cases tree with
  | none =>
    obtain ⟨origin, there, definition, plain, active, skills⟩ := loadPackagedSources_from loaded
    have registry := mem_append_right (treeFiles none) (Directory.mem_of_get there)
    refine ⟨iff_of_true origin rfl, ?_, ⟨registry, definition, active, ?_, ?_, ?_⟩⟩
    · intro isLocal
      rw [origin] at isLocal
      cases isLocal
    · intro skill member _
      exact (skills skill member).2.1
    · intro skill member
      exact (skills skill member).2.2.mono (subset_append_right _ _)
    · intro skill member custom
      rw [(skills skill member).1] at custom
      cases custom
  | some tree =>
    obtain ⟨⟨content, registry⟩, read, later⟩ := bind_ok.mp loaded
    obtain ⟨there, definition⟩ := localRegistry_from read
    obtain ⟨entries, found, rest⟩ := bind_ok.mp later
    obtain ⟨skills, each, made⟩ := bind_ok.mp rest
    cases made
    have shape : ∀ skill ∈ skills, ∃ entry ∈ entries,
        assembleSkill kit entry.2.1 overrides entry.1 entry.2.2.1 entry.2.2.2 = .ok skill := fun skill member =>
      mem_of_mapM each member
    refine ⟨iff_of_false (by simp) (by simp), fun _ => there, ?_⟩
    refine ⟨mem_append_left _ (Directory.mem_of_get there), definition, rfl, ?_, ?_, ?_⟩
    · intro skill member _
      obtain ⟨entry, inside, made⟩ := shape skill member
      exact (assembleSkill_from (localSkills_from found inside).1 made).2.2.1
    · intro skill member
      obtain ⟨entry, listed, made⟩ := shape skill member
      exact (assembleSkill_from (localSkills_from found listed).1 made).2.2.2.mono (subset_append_left _ _)
    · intro skill member custom
      obtain ⟨entry, listed, made⟩ := shape skill member
      obtain ⟨own, isCustom⟩ := localSkills_from found listed
      rw [(assembleSkill_from own made).2.1] at custom
      exact isCustom custom

theorem restoredSkill_from {names : List String} {before : CanonicalSkill}
    (made : restoreSkill kit package registry names before = .ok skill) :
    skill = before ∨ ∃ content sideEffectClass, package.get (primaryPath before.name) = some content ∧
      skill = { before with sideEffectClass, content, override := none } := by
  unfold restoreSkill at made
  split at made
  · cases made
    exact .inl rfl
  · cases there : package.get (primaryPath before.name) with
    | none =>
      rw [there] at made
      cases made
    | some content =>
      rw [there] at made
      obtain ⟨_, _, same⟩ := bind_ok.mp made
      cases same
      exact .inr ⟨content, _, rfl, rfl⟩

theorem restorePackagedSkillSources_from {files : Directory CanonicalPath Bytes}
    {names : List String} {loaded : CanonicalSourceSet} (sourced : Sourced kit files package overrides loaded)
    (restored : restorePackagedSkillSources kit package loaded names = .ok sources) :
    sources.origin = loaded.origin ∧ sources.registryContent = loaded.registryContent ∧
      Sourced kit files package overrides sources := by
  unfold restorePackagedSkillSources at restored
  split at restored
  · cases restored
    exact ⟨rfl, rfl, sourced⟩
  · obtain ⟨⟨_, registry⟩, _, later⟩ := bind_ok.mp restored
    dsimp only at later
    split at later
    · cases later
    · obtain ⟨skills, each, rest⟩ := bind_ok.mp later
      split at rest
      · cases rest
      · cases rest
        refine ⟨rfl, rfl, ⟨sourced.registry, sourced.definition, sourced.active, ?_, ?_, ?_⟩⟩
        · intro skill member isOverridden
          obtain ⟨before, listed, made⟩ := mem_of_mapM each member
          obtain rfl | ⟨_, _, _, rfl⟩ := restoredSkill_from made
          · exact sourced.overridden skill listed isOverridden
          · cases isOverridden
        · intro skill member
          obtain ⟨before, listed, made⟩ := mem_of_mapM each member
          obtain rfl | ⟨content, _, there, rfl⟩ := restoredSkill_from made
          · exact sourced.skills skill listed
          · exact ⟨fun _ => mem_append_right _ (Directory.mem_of_get there), (sourced.skills before listed).resources⟩
        · intro skill member custom
          obtain ⟨before, listed, made⟩ := mem_of_mapM each member
          obtain rfl | ⟨_, _, _, rfl⟩ := restoredSkill_from made
          · exact sourced.custom skill listed custom
          · exact sourced.custom before listed custom
end Workctx.Adapters
