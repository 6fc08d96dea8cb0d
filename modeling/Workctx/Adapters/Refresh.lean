import Workctx.Adapters.Selection

/-! Install and repair plans of a Codex context, and runs of applied plans with the operator's edits
and new package versions between them. -/

namespace Workctx.Adapters
open Workctx.Concurrent Workctx.Text

/-- `FileMutation`; the file is deleted when it has no content. -/
structure FileMutation where
  path : CanonicalPath
  content : Option Bytes
deriving DecidableEq

/-- A plan writes its mutations and the manifest, or only reports. -/
inductive AdapterPlan where
  | reportOnly (reason : String)
  | mutating (mutations : List FileMutation) (manifest : AdapterManifest)

/-- `_generated_skill_inventory`. -/
def generatedInventory (manifest : Option AdapterManifest) : List (CanonicalPath × String) :=
  match manifest with
  | none => []
  | some manifest => manifest.skills.flatMap fun entry => match entry.mode with
    | .nativeVerified _ => []
    | .generated outputs => outputs

/-- `_codex_override_takeover_hashes`. -/
def takeoverHashes (manifest : Option AdapterManifest) (sources : CanonicalSourceSet) : List (CanonicalPath × String) :=
  match manifest with
  | none => []
  | some manifest => sources.skills.filterMap fun skill => do
    let override ← skill.override
    let entry ← manifest.skills.find? (·.name == skill.name)
    let adoption ← override.packagedAtAdoptionHash
    match entry.mode with
    | .generated _ => none
    | .nativeVerified files =>
      if entry.canonicalHash = adoption ∧ files.lookup "SKILL.md" = some adoption then
        some (primaryPath skill.name, adoption)
      else none

/-- The files under `.agents/skills`, if the directory is there. -/
def treeFiles (tree : Option SkillTree) : Directory CanonicalPath Bytes :=
  match tree with
  | none => []
  | some tree => tree.files

section
variable (kit : Kit)

def seedFiles (sources : CanonicalSourceSet) : List FileMutation :=
  ⟨registryPath, some sources.registryContent⟩ :: sources.skills.flatMap fun skill =>
    (if skill.override.isNone then [⟨primaryPath skill.name, some skill.content⟩] else []) ++
      skill.resources.map fun resource => ⟨.skill skill.name resource.relativePath, some resource.content⟩

/-- `_prepare_install_or_repair`, for the files under `.agents/skills` and the manifest. -/
def prepareInstallOrRepair (tree : Option SkillTree) (package : Directory CanonicalPath Bytes)
    (overrideFiles : List (String × Bytes)) (manifest : Option AdapterManifest) : Except AdapterError AdapterPlan := do
  let selection ← loadSourceSelection kit tree package overrideFiles manifest
  let sources := selection.sources
  let observed (path : CanonicalPath) := ((treeFiles tree).get path).map kit.contentHash
  let desired := (sources.skills.filter (·.override.isSome)).map fun skill => (primaryPath skill.name, skill.content)
  let takeovers := takeoverHashes manifest sources
  let restored := (sources.skills.filter fun skill => selection.restoreNames.contains skill.name).map fun skill =>
    (primaryPath skill.name, skill.content)
  let managed (path : CanonicalPath) := (((desired ++ restored).lookup path).map kit.contentHash)
  let old := generatedInventory manifest
  let modified := old.filter fun output => (observed output.1).isSome && observed output.1 != some output.2 &&
    observed output.1 != managed output.1
  let drifted := selection.changes.filter fun change => observed change.path != change.authorityHash
  let conflicts := desired.filter fun output => (old.lookup output.1).isNone && (observed output.1).isSome &&
    observed output.1 != takeovers.lookup output.1
  if (modified.isEmpty && drifted.isEmpty && conflicts.isEmpty) = false then
    return .reportOnly "One or more mutation targets fail the three-factor authority check"
  let canonical := (selection.changes.filter fun change =>
    observed change.path != change.content.map kit.contentHash).map fun change => FileMutation.mk change.path change.content
  let seeds := if sources.origin = .packaged then seedFiles sources else []
  match seeds.find? fun seed => (observed seed.path).isSome with
  | some seed => return .reportOnly ("Packaged canonical seed target already exists: " ++ seed.path.text)
  | none =>
    let outputs := (desired.filter fun output => observed output.1 != some (kit.contentHash output.2)).map fun output =>
      FileMutation.mk output.1 (some output.2)
    let obsolete := (old.filter fun output => (desired.lookup output.1).isNone && (observed output.1).isSome).filterMap
      fun output => match restored.lookup output.1 with
        | some content =>
          if observed output.1 = some (kit.contentHash content) then none else some (FileMutation.mk output.1 (some content))
        | none => some (FileMutation.mk output.1 none)
    return .mutating (canonical ++ seeds ++ outputs ++ obsolete) (buildManifest kit selection)

/-- The directory of a path is made with its first file. -/
def SkillTree.write (tree : SkillTree) (path : CanonicalPath) (content : Bytes) : SkillTree where
  directories := match path with
    | .top _ => tree.directories
    | .skill name _ => if name ∈ tree.directories then tree.directories else name :: tree.directories
  files := tree.files.put path content
  unique := Directory.nodup_put tree.unique path content

def SkillTree.delete (tree : SkillTree) (path : CanonicalPath) : SkillTree where
  directories := tree.directories
  files := tree.files.erase path
  unique := Directory.nodup_erase tree.unique path

def emptyTree : SkillTree := ⟨[], [], List.nodup_nil⟩

def applyMutation (tree : SkillTree) (mutation : FileMutation) : SkillTree :=
  match mutation.content with
  | some content => tree.write mutation.path content
  | none => tree.delete mutation.path

def applyMutations (tree : Option SkillTree) (mutations : List FileMutation) : Option SkillTree :=
  if mutations.isEmpty then tree else some (mutations.foldl applyMutation (tree.getD emptyTree))

/-! Runs. -/

structure ContextState where
  tree : Option SkillTree
  package : Directory CanonicalPath Bytes
  overrideFiles : List (String × Bytes)
  manifest : Option AdapterManifest

/-- The operator edits skills or overrides, the package is upgraded, or an install or repair plan is
prepared and applied. -/
inductive ContextEvent where
  | edit (tree : Option SkillTree)
  | override (files : List (String × Bytes))
  | upgrade (package : Directory CanonicalPath Bytes)
  | refresh

def ContextState.file (state : ContextState) (path : CanonicalPath) : Option Bytes := (treeFiles state.tree).get path

def ContextState.plan (state : ContextState) : Except AdapterError AdapterPlan :=
  prepareInstallOrRepair kit state.tree state.package state.overrideFiles state.manifest

def ContextState.step (state : ContextState) : ContextEvent → ContextState
  | .edit tree => { state with tree }
  | .override files => { state with overrideFiles := files }
  | .upgrade package => { state with package }
  | .refresh => match state.plan kit with
    | .ok (.mutating mutations manifest) => { state with tree := applyMutations state.tree mutations, manifest := some manifest }
    | _ => state

def ContextState.run (start : ContextState) (events : List ContextEvent) : ContextState :=
  events.foldl (ContextState.step kit) start
end
end Workctx.Adapters
