import Mathlib.Data.List.Sort
import Workctx.Concurrent.Directory
import Workctx.Domain.Checks
import Workctx.Text.Lines

/-! The canonical skill files of a context, and the inventory the adapters select from. -/

namespace Workctx.Adapters
open Workctx.Concurrent Workctx.Text

/-- A path under `.agents/skills`: a file beside the skill directories, or one inside a directory. -/
inductive CanonicalPath where
  | top (name : String)
  | skill (name relative : String)
deriving DecidableEq

def CanonicalPath.text : CanonicalPath → String
  | .top name => ".agents/skills/" ++ name
  | .skill name relative => ".agents/skills/" ++ name ++ "/" ++ relative

def registryPath : CanonicalPath := .top "registry.yaml"

def primaryPath (name : String) : CanonicalPath := .skill name "SKILL.md"

inductive AdapterError where
  | inputMissing (message path skill : String)
  | registryMissing (message path : String)
  | registryInvalid (message : String)
  | skillMissing (message path skill : String)
  | state (message : String)
deriving DecidableEq

/-- `_RegistryDefinition`, with the spans `_registry_section_span` and `_registry_field_span` find. -/
structure RegistryDefinition where
  skills : List (String × String)
  customSkills : List (String × String)
  skillsSpan : Nat × Nat
  customSpan : Nat × Nat
deriving DecidableEq

/-- The readers of texts and the hash function. -/
structure Kit where
  contentHash : Bytes → String
  registryDefinition : Bytes → Except AdapterError RegistryDefinition
  validateSkill : (name : String) → (custom : Bool) → Bytes → (links : List String) → Except AdapterError Unit
  validateResource : (skill relative : String) → Bytes → Except AdapterError Unit
  provenance : Bytes → Except AdapterError String
  collisionKey : String → String

/-- `SafeRoot.list_directory` and `inspect_file` over `.agents/skills`; a file has one content. -/
structure SkillTree where
  directories : List String
  files : Directory CanonicalPath Bytes
  unique : (files.map Prod.fst).Nodup

structure CanonicalResource where
  relativePath : String
  content : Bytes
deriving DecidableEq

/-- `ResolvedSkillOverride`. -/
structure SkillOverride where
  skill : String
  content : Bytes
  packagedAtAdoptionHash : Option String
  packagedNowHash : Option String
deriving DecidableEq

/-- `SkillOverrides.by_name`. -/
def overrideFor (overrides : List SkillOverride) (name : String) : Option SkillOverride :=
  overrides.find? fun override => override.packagedNowHash.isSome && override.skill == name

structure CanonicalSkill where
  name : String
  sideEffectClass : String
  content : Bytes
  resources : List CanonicalResource
  override : Option SkillOverride
  custom : Bool
deriving DecidableEq

/-- `_canonical_skill_files`, under their paths below the skill directory. -/
def CanonicalSkill.files (skill : CanonicalSkill) : Directory String Bytes :=
  ("SKILL.md", skill.content) :: skill.resources.map fun resource => (resource.relativePath, resource.content)

inductive SourceOrigin where
  | packaged
  | local
deriving DecidableEq

structure CanonicalSourceSet where
  origin : SourceOrigin
  registryContent : Bytes
  registry : RegistryDefinition
  skills : List CanonicalSkill
  overrides : List SkillOverride

def CanonicalSourceSet.customSkillNames (sources : CanonicalSourceSet) : List String :=
  (sources.skills.filter (·.custom)).map (·.name)

section
variable (kit : Kit)

/-- The `skills:` section of a registry. -/
def skillsContent (content : Bytes) (registry : RegistryDefinition) : Bytes :=
  (content.take registry.skillsSpan.2).drop registry.skillsSpan.1

/-- A registry without its `custom_skills:` field. -/
def withoutCustomContent (content : Bytes) (registry : RegistryDefinition) : Bytes :=
  if registry.customSkills.isEmpty then content
  else content.take registry.customSpan.1 ++ content.drop registry.customSpan.2

def refreshRegistrySkills (localContent packagedContent : Bytes) : Except AdapterError Bytes := do
  let localRegistry ← kit.registryDefinition localContent
  let packaged ← kit.registryDefinition packagedContent
  if packaged.customSkills.isEmpty = false then
    throw (.registryInvalid "Packaged skill registry must not declare context-local custom_skills")
  else if localRegistry.customSkills.isEmpty then return packagedContent
  else do
    let refreshed := localContent.take localRegistry.skillsSpan.1 ++ skillsContent packagedContent packaged ++
      localContent.drop localRegistry.skillsSpan.2
    let refreshedRegistry ← kit.registryDefinition refreshed
    if refreshedRegistry.customSkills = localRegistry.customSkills then return refreshed
    else throw (.registryInvalid "Refreshing packaged skills changed the custom_skills inventory")

def sortedResourceInventory (skill : String) (found : List CanonicalResource) :
    Except AdapterError (List CanonicalResource) :=
  let ordered := found.insertionSort fun first second => first.relativePath ≤ second.relativePath
  if (kit.collisionKey "SKILL.md" :: ordered.map fun resource => kit.collisionKey resource.relativePath).Nodup then
    .ok ordered
  else .error (.state ("Canonical skill " ++ skill ++ " contains colliding source paths"))

def filesOf (files : Directory CanonicalPath Bytes) (name : String) : Directory String Bytes :=
  files.filterMap fun entry => match entry.1 with
    | .top _ => none
    | .skill skill relative => if skill = name then some (relative, entry.2) else none

def resourcesOf (name : String) (files : Directory String Bytes) : Except AdapterError (List CanonicalResource) := do
  let found ← (files.filter fun entry => entry.1 != "SKILL.md").mapM fun entry => do
    kit.validateResource name entry.1 entry.2
    return (⟨entry.1, entry.2⟩ : CanonicalResource)
  sortedResourceInventory kit name found

def composeCanonicalSkill (template : CanonicalSkill) (files : Directory String Bytes) (override : Option SkillOverride) :
    Except AdapterError CanonicalSkill := do
  let some primary := files.get "SKILL.md"
    | throw (.skillMissing ("Canonical skill is missing its primary file: " ++ template.name)
        (primaryPath template.name).text template.name)
  let resources ← resourcesOf kit template.name files
  kit.validateSkill template.name template.custom primary (resources.map (·.relativePath))
  return { template with content := primary, resources, override }

def readSkill (files : Directory CanonicalPath Bytes) (name : String) :
    Except AdapterError (Option (Bytes × List CanonicalResource)) :=
  match (filesOf files name).get "SKILL.md" with
  | none => .ok none
  | some content => do
    let resources ← resourcesOf kit name (filesOf files name)
    return some (content, resources)

def assembleSkill (custom : Bool) (overrides : List SkillOverride) (entry : String × String) (primary : Bytes)
    (resources : List CanonicalResource) : Except AdapterError CanonicalSkill := do
  let override := overrideFor overrides entry.1
  let content := match override with
    | some override => override.content
    | none => primary
  kit.validateSkill entry.1 custom content (resources.map (·.relativePath))
  return { name := entry.1, sideEffectClass := entry.2, content, resources, override, custom }

def packagedSkill (package : Directory CanonicalPath Bytes) (overrides : List SkillOverride) (entry : String × String) :
    Except AdapterError CanonicalSkill := do
  let some (primary, resources) ← readSkill kit package entry.1
    | throw (.state ("Packaged agent kit file is missing: skills/" ++ entry.1 ++ "/SKILL.md"))
  assembleSkill kit false overrides entry primary resources

def packagedRegistry (package : Directory CanonicalPath Bytes) : Except AdapterError (Bytes × RegistryDefinition) := do
  let some content := package.get registryPath
    | throw (.state "Packaged agent kit file is missing: skills/registry.yaml")
  let registry ← kit.registryDefinition content
  return (content, registry)

/-- `load_context_skill_overrides`: the override files, resolved against the packaged skills. -/
def loadSkillOverrides (package : Directory CanonicalPath Bytes) (files : List (String × Bytes)) :
    Except AdapterError (List SkillOverride) :=
  if files.isEmpty then .ok []
  else do
    let (_, registry) ← packagedRegistry kit package
    let hashes ← registry.skills.mapM fun entry => do
      let some content := package.get (primaryPath entry.1)
        | throw (.state ("Packaged agent kit file is missing: skills/" ++ entry.1 ++ "/SKILL.md"))
      return (entry.1, kit.contentHash content)
    files.mapM fun file => match hashes.lookup file.1 with
      | none => .ok ⟨file.1, file.2, none, none⟩
      | some packagedNow => do
        let adoption ← kit.provenance file.2
        return ⟨file.1, file.2, some adoption, some packagedNow⟩

/-- `load_packaged_canonical_sources`. -/
def loadPackagedSources (package : Directory CanonicalPath Bytes) (overrides : List SkillOverride) :
    Except AdapterError CanonicalSourceSet := do
  let (content, registry) ← packagedRegistry kit package
  if registry.customSkills.isEmpty = false then
    throw (.registryInvalid "Packaged skill registry must not declare context-local custom_skills")
  let skills ← registry.skills.mapM (packagedSkill kit package overrides)
  return { origin := .packaged, registryContent := content, registry, skills, overrides }

/-- `_local_sources` up to the skills: the registry declares the directories there are. -/
def localRegistry (tree : SkillTree) : Except AdapterError (Bytes × RegistryDefinition) := do
  let some content := tree.files.get registryPath
    | throw (.registryMissing "Local .agents/skills exists without registry.yaml" registryPath.text)
  let registry ← kit.registryDefinition content
  let declared := (registry.skills ++ registry.customSkills).map Prod.fst
  let unexpected := tree.files.filter fun entry => match entry.1 with
    | .top name => name != "README.md" && name != "registry.yaml"
    | .skill _ _ => false
  if (tree.directories.all (· ∈ declared) && declared.all (· ∈ tree.directories) && unexpected.isEmpty) = false then
    throw (.registryInvalid "Local canonical skill tree and registry inventory do not match")
  return (content, registry)

def localSkills (tree : SkillTree) (registry : RegistryDefinition) :
    Except AdapterError (List ((String × String) × Bool × Bytes × List CanonicalResource)) := do
  let entries := registry.skills.map (·, false) ++ registry.customSkills.map (·, true)
  let read ← entries.mapM fun entry => do return (entry, ← readSkill kit tree.files entry.1.1)
  let missing := read.filterMap fun entry => if entry.2.isNone then some entry.1.1.1 else none
  match missing with
  | first :: _ =>
    throw (.skillMissing ("Local canonical skills are missing: " ++ ", ".intercalate missing) (primaryPath first).text first)
  | [] => return read.filterMap fun entry => entry.2.map fun files => (entry.1.1, entry.1.2, files)

def loadCanonicalSources (tree : Option SkillTree) (package : Directory CanonicalPath Bytes) (overrides : List SkillOverride) :
    Except AdapterError CanonicalSourceSet :=
  match tree with
  | none => loadPackagedSources kit package overrides
  | some tree => do
    let (content, registry) ← localRegistry kit tree
    let read ← localSkills kit tree registry
    let skills ← read.mapM fun entry => assembleSkill kit entry.2.1 overrides entry.1 entry.2.2.1 entry.2.2.2
    return { origin := .local, registryContent := content, registry, skills, overrides }

/-- A skill whose override was removed has the current packaged primary file. -/
def restoreSkill (package : Directory CanonicalPath Bytes) (registry : RegistryDefinition) (names : List String)
    (skill : CanonicalSkill) : Except AdapterError CanonicalSkill :=
  if skill.name ∉ names then .ok skill
  else do
    let some content := package.get (primaryPath skill.name)
      | throw (.state ("Packaged agent kit file is missing: skills/" ++ skill.name ++ "/SKILL.md"))
    kit.validateSkill skill.name false content (((filesOf package skill.name).map Prod.fst).filter (· != "SKILL.md"))
    let sideEffectClass := (registry.skills.lookup skill.name).getD skill.sideEffectClass
    return { skill with sideEffectClass, content, override := none }

def restorePackagedSkillSources (package : Directory CanonicalPath Bytes) (sources : CanonicalSourceSet)
    (names : List String) : Except AdapterError CanonicalSourceSet :=
  if names.isEmpty then .ok sources
  else do
    let (_, registry) ← packagedRegistry kit package
    match names.find? fun name => !(registry.skills.map Prod.fst).contains name with
    | some name => throw (.state ("Removed Codex override no longer names a packaged skill: " ++ name))
    | none =>
      let skills ← sources.skills.mapM (restoreSkill kit package registry names)
      match names.find? fun name => !sources.skills.any (·.name == name) with
      | some name => throw (.state ("Removed Codex override is absent from the selected inventory: " ++ name))
      | none => return { sources with skills }
end
end Workctx.Adapters
