import Workctx.Adapters.Sources

/-! The selection of the canonical files of a Codex context: a merge of what the manifest recorded,
what is on disk and what the running package ships. -/

namespace Workctx.Adapters
open Workctx.Concurrent Workctx.Text

/-- How a skill was installed: its source set with the recorded hashes, or the outputs it generated. -/
inductive SkillMode where
  | nativeVerified (files : List (String × String))
  | generated (outputs : List (CanonicalPath × String))
deriving DecidableEq

structure SkillAdapterEntry where
  name : String
  canonicalHash : String
  mode : SkillMode
deriving DecidableEq

structure AdapterManifest where
  registryHash : String
  skills : List SkillAdapterEntry
deriving DecidableEq

structure CanonicalFileChange where
  path : CanonicalPath
  content : Option Bytes
  authorityHash : Option String
  reason : String
deriving DecidableEq

structure ManagedFileState where
  path : CanonicalPath
  recordedAtAdoptionHash : String
  packagedNowHash : String
  localHash : String
deriving DecidableEq

/-- What the selection keeps of one path, and the change it asks for. -/
structure FileSelection where
  selected : Option Bytes
  change : Option CanonicalFileChange
  preserved : Option String
  state : Option ManagedFileState
deriving DecidableEq

structure SkillSelection where
  skill : Option CanonicalSkill
  changes : List CanonicalFileChange
  preserved : List (CanonicalPath × String)
  states : List ManagedFileState

structure SourceSelection where
  sources : CanonicalSourceSet
  changes : List CanonicalFileChange
  managedFileStates : List ManagedFileState
  preservedSourceHashes : List (CanonicalPath × String)
  preservedRegistryHash : Option String
  restoreNames : List String

/-- `_removed_codex_override_names`. -/
def removedOverrideNames (manifest : AdapterManifest) (overrides : List SkillOverride) : List String :=
  (manifest.skills.filter fun entry => match entry.mode with
    | .nativeVerified _ => false
    | .generated outputs =>
      outputs.all (·.1 == primaryPath entry.name) && !outputs.isEmpty &&
        !overrides.any (·.skill == entry.name)).map (·.name)

section
variable (kit : Kit)

def selectFile (name relative : String) (recorded : Option String) (localContent packagedContent : Option Bytes) :
    Except AdapterError FileSelection :=
  let path := CanonicalPath.skill name relative
  match packagedContent, localContent with
  | none, none => .ok ⟨none, none, none, none⟩
  | none, some content =>
    if recorded = some (kit.contentHash content) then
      .ok ⟨none, some ⟨path, none, recorded, "Remove a pristine canonical skill resource no longer packaged"⟩, none, none⟩
    else .ok ⟨some content, none, recorded, none⟩
  | some packaged, none =>
    if recorded.isSome then .error (.inputMissing ("Tracked canonical skill file is missing: " ++ path.text) path.text name)
    else .ok ⟨some packaged, some ⟨path, packaged, none, "Materialize a newly packaged canonical skill file"⟩, none, none⟩
  | some packaged, some content =>
    match recorded with
    | none => .ok ⟨some content, none, none, none⟩
    | some recorded =>
      let change : CanonicalFileChange := ⟨path, some packaged, some recorded,
        "Refresh pristine manifest-tracked canonical skill file from the current package"⟩
      if kit.contentHash content = recorded then
        .ok ⟨some packaged, if kit.contentHash content = kit.contentHash packaged then none else some change, none, none⟩
      else if kit.contentHash content = kit.contentHash packaged then .ok ⟨some content, none, none, none⟩
      else .ok ⟨some content, none, some recorded,
        some ⟨path, recorded, kit.contentHash packaged, kit.contentHash content⟩⟩

def knownPaths (recorded : List (String × String)) (localFiles packagedFiles : Directory String Bytes) : List String :=
  (recorded.map Prod.fst ++ localFiles.map Prod.fst ++ packagedFiles.map Prod.fst).dedup.insertionSort (· ≤ ·)

def mergeSkill (template packagedSkill localSkill : CanonicalSkill) (recorded : List (String × String)) :
    Except AdapterError SkillSelection := do
  let name := packagedSkill.name
  let merged ← (knownPaths recorded localSkill.files packagedSkill.files).mapM fun relative => do
    let file ← selectFile kit name relative (recorded.lookup relative) (localSkill.files.get relative)
      (packagedSkill.files.get relative)
    return (relative, file)
  let selected := merged.filterMap fun file => file.2.selected.map (file.1, ·)
  let skill ← composeCanonicalSkill kit template selected none
  return {
    skill := some skill
    changes := merged.filterMap (·.2.change)
    preserved := merged.filterMap fun file => file.2.preserved.map (CanonicalPath.skill name file.1, ·)
    states := merged.filterMap (·.2.state) }

def selectSkill (localSources packaged : CanonicalSourceSet) (manifest : AdapterManifest) (restoreNames : List String)
    (usePackagedRegistry : Bool) (registrySkill : CanonicalSkill) : Except AdapterError SkillSelection :=
  let name := registrySkill.name
  let localSkill := localSources.skills.find? (·.name == name)
  match packaged.skills.find? (·.name == name) with
  | none => .ok ⟨localSkill, [], [], []⟩
  | some packagedSkill =>
    match overrideFor localSources.overrides name with
    | some override => do
      let files := packagedSkill.files.put "SKILL.md" override.content
      let skill ← composeCanonicalSkill kit packagedSkill files (some override)
      return ⟨some skill, [], [], []⟩
    | none =>
      if name ∈ restoreNames then .ok ⟨some packagedSkill, [], [], []⟩
      else match localSkill with
        | none =>
          let changes := packagedSkill.files.map fun file =>
            ⟨.skill name file.1, some file.2, none, "Materialize a newly packaged canonical skill file"⟩
          .ok ⟨some packagedSkill, changes, [], []⟩
        | some localSkill =>
          match (manifest.skills.find? (·.name == name)).map SkillAdapterEntry.mode with
          | some (.nativeVerified recorded) =>
            mergeSkill kit (if usePackagedRegistry then packagedSkill else registrySkill) packagedSkill localSkill recorded
          | _ => .ok ⟨some localSkill, [], [], []⟩

def registryMatches (localSources packaged : CanonicalSourceSet) (recorded : String) : Bool :=
  let own := kit.contentHash localSources.registryContent
  own == recorded || own == kit.contentHash packaged.registryContent ||
    (!localSources.customSkillNames.isEmpty &&
      (kit.contentHash (withoutCustomContent localSources.registryContent localSources.registry) == recorded ||
        skillsContent localSources.registryContent localSources.registry ==
          skillsContent packaged.registryContent packaged.registry))

def editedRegistryStates (edited : Bool) (localSources packaged : CanonicalSourceSet) (manifest : AdapterManifest) :
    Except AdapterError (List ManagedFileState) :=
  if edited then do
    let now ← refreshRegistrySkills kit localSources.registryContent packaged.registryContent
    return [⟨registryPath, manifest.registryHash, kit.contentHash now, kit.contentHash localSources.registryContent⟩]
  else .ok []

def effectiveRegistry (usePackagedRegistry : Bool) (localSources packaged : CanonicalSourceSet) : Except AdapterError Bytes :=
  if usePackagedRegistry then refreshRegistrySkills kit localSources.registryContent packaged.registryContent
  else .ok localSources.registryContent

def selectCodexContextSources (localSources packaged : CanonicalSourceSet) (manifest : AdapterManifest)
    (restoreNames : List String) : Except AdapterError SourceSelection :=
  if localSources.origin ≠ .local then .ok ⟨localSources, [], [], [], none, restoreNames⟩
  else do
    let own := kit.contentHash localSources.registryContent
    let localPackaged := localSources.skills.filter fun skill => !skill.custom
    let localCustom := localSources.skills.filter (·.custom)
    let packageRemoved := localPackaged.filter fun skill => !packaged.skills.any (·.name == skill.name)
    let edited := !registryMatches kit localSources packaged manifest.registryHash
    let usePackagedRegistry := !edited && packageRemoved.isEmpty
    let states ← editedRegistryStates kit edited localSources packaged manifest
    let effective ← effectiveRegistry kit usePackagedRegistry localSources packaged
    let mixed := !localSources.customSkillNames.isEmpty
    let registryChange : CanonicalFileChange := ⟨registryPath, some effective,
      some (if mixed then own else manifest.registryHash),
      if mixed then "Refresh packaged skills in the canonical registry while preserving custom_skills verbatim"
      else "Refresh pristine canonical skill registry from the current package"⟩
    let registryChanges := if usePackagedRegistry && own != kit.contentHash effective then [registryChange] else []
    let registrySkills := (if usePackagedRegistry then packaged.skills else localPackaged) ++ localCustom
    let selections ← registrySkills.mapM
      (selectSkill kit localSources packaged manifest restoreNames usePackagedRegistry)
    let registry ← kit.registryDefinition effective
    let skills := (selections.filterMap (·.skill)).insertionSort fun first second => first.name ≤ second.name
    return {
      sources := { localSources with registryContent := effective, registry, skills }
      changes := (registryChanges ++ selections.flatMap (·.changes)).insertionSort fun first second =>
        first.path.text ≤ second.path.text
      managedFileStates := states ++ selections.flatMap (·.states)
      preservedSourceHashes := selections.flatMap (·.preserved)
      preservedRegistryHash := if edited then some manifest.registryHash else none
      restoreNames }

/-- `_load_source_selection` in a context, for the Codex client. -/
def loadSourceSelection (tree : Option SkillTree) (package : Directory CanonicalPath Bytes)
    (overrideFiles : List (String × Bytes)) (manifest : Option AdapterManifest) : Except AdapterError SourceSelection := do
  let overrides ← loadSkillOverrides kit package overrideFiles
  let loaded ← loadCanonicalSources kit tree package overrides
  let restoreNames := match manifest with
    | none => []
    | some manifest => removedOverrideNames manifest overrides
  let localSources ← restorePackagedSkillSources kit package loaded restoreNames
  let packaged ← loadPackagedSources kit package []
  let misplaced := localSources.skills.filter fun skill => !skill.custom && !packaged.skills.any (·.name == skill.name)
  if misplaced.isEmpty = false then
    throw (.registryInvalid ("The packaged skills section contains context-local entries: " ++
      ", ".intercalate ((misplaced.map (·.name)).insertionSort (· ≤ ·)) ++ "."))
  match manifest with
  | none => return ⟨localSources, [], [], [], none, restoreNames⟩
  | some manifest => selectCodexContextSources kit localSources packaged manifest restoreNames

/-- `_build_manifest`: the source set of a native skill is recorded with the preserved hashes. -/
def buildManifest (selection : SourceSelection) : AdapterManifest :=
  let recorded (path : CanonicalPath) (digest : String) := (selection.preservedSourceHashes.lookup path).getD digest
  { registryHash := selection.preservedRegistryHash.getD (kit.contentHash selection.sources.registryContent)
    skills := selection.sources.skills.map fun skill => {
      name := skill.name
      canonicalHash := recorded (primaryPath skill.name) (kit.contentHash skill.content)
      mode := if skill.override.isSome then .generated [(primaryPath skill.name, kit.contentHash skill.content)]
        else .nativeVerified ((skill.files.map fun file =>
          (file.1, recorded (.skill skill.name file.1) (kit.contentHash file.2))).insertionSort (·.1 ≤ ·.1)) } }
end
end Workctx.Adapters
