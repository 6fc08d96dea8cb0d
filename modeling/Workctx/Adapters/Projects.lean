import Workctx.Adapters.Refresh
import Workctx.Adapters.Rendered

/-! A project with an adapter: its paths, its manifest, and the files that are rendered for a client. -/

namespace Workctx.Adapters.Plans
open Workctx.Concurrent Workctx.Text

inductive AgentClient where
  | codex
  | claude
  | gemini
deriving DecidableEq

def AgentClient.value : AgentClient → String
  | .codex => "codex"
  | .claude => "claude"
  | .gemini => "gemini"

def bridgePath : AgentClient → String
  | .codex => "AGENTS.md"
  | .claude => "CLAUDE.md"
  | .gemini => "GEMINI.md"

def mcpConfigurationPath : AgentClient → String
  | .codex => ".codex/config.toml"
  | .claude => ".mcp.json"
  | .gemini => ".gemini/settings.json"

/-- A file that a plan can look at; an output is below the skill directory of its client, and a backup below `.workctx/backups`. -/
inductive ProjectPath where
  | canonical (path : CanonicalPath)
  | output (client : AgentClient) (skill relative : String)
  | bridge (client : AgentClient)
  | mcp (client : AgentClient)
  | backup (path : String)
  | manifest (client : AgentClient)
deriving DecidableEq

def ProjectPath.text (isContext : Bool) : ProjectPath → String
  | .canonical path => path.text
  | .output client skill relative => "." ++ client.value ++ "/skills/" ++ skill ++ "/" ++ relative
  | .bridge client => bridgePath client
  | .mcp client => mcpConfigurationPath client
  | .backup path => path
  | .manifest client => (if isContext then "98_state" else ".workctx") ++ "/agent-adapters/" ++ client.value ++ "/skill-manifest.json"

/-- `skill_target_path` and the auxiliary files beside it -/
def targetPath (client : AgentClient) (skill relative : String) : ProjectPath :=
  if client = .codex then .canonical (.skill skill relative) else .output client skill relative

/-! The manifest -/

/-- How a skill was installed: its source set, or the outputs that were rendered of it. -/
inductive InstalledMode where
  | nativeVerified (files : List (String × String))
  | generated (outputs : List (ProjectPath × String))
deriving DecidableEq

structure InstalledSkill where
  name : String
  canonicalHash : String
  mode : InstalledMode
deriving DecidableEq

inductive BridgeOwnership where
  | generated
  | userOwned
deriving DecidableEq

structure InstructionBridge where
  ownership : BridgeOwnership
  sourceHash : String
  targetHash : String
deriving DecidableEq

/-- A configuration that is there has its hash recorded. -/
inductive McpConfiguration where
  | notImplemented
  | generated (contentHash : String)
  | native (contentHash : String)
  | divergent (contentHash : String)
deriving DecidableEq

structure AdapterComponents where
  instructionBridge : InstructionBridge
  mcpConfiguration : McpConfiguration
deriving DecidableEq

structure BackupEntry where
  path : String
  contentHash : String
deriving DecidableEq

structure AdapterManifest where
  generatedAt : String
  registryHash : String
  skills : List InstalledSkill
  components : Option AdapterComponents
  backups : List BackupEntry
deriving DecidableEq

def InstalledSkill.outputs (skill : InstalledSkill) : List (ProjectPath × String) :=
  match skill.mode with
  | .nativeVerified _ => []
  | .generated outputs => outputs

/-- `_is_safe_skill_output` of a recorded output -/
def isSafeSkillOutput (client : AgentClient) (skill : String) : ProjectPath → Bool
  | .output owner name _ => owner == client && name == skill
  | .canonical path => client == .codex && path == primaryPath skill
  | _ => false

def InstalledSkill.wellShaped (client : AgentClient) (skill : InstalledSkill) : Bool :=
  match skill.mode with
  | .nativeVerified files => (files.map Prod.fst).Nodup && files.lookup "SKILL.md" == some skill.canonicalHash
  | .generated outputs => !outputs.isEmpty && outputs.all fun output => isSafeSkillOutput client skill.name output.1

def InstructionBridge.wellShaped (bridge : InstructionBridge) : Bool := bridge.ownership == .userOwned || bridge.sourceHash == bridge.targetHash

structure AdapterManifest.Valid (client : AgentClient) (manifest : AdapterManifest) : Prop where
  names : (manifest.skills.map InstalledSkill.name).Nodup
  outputs : ((manifest.skills.flatMap InstalledSkill.outputs).map Prod.fst).Nodup
  shapes : ∀ skill ∈ manifest.skills, skill.wellShaped client = true
  bridge : manifest.components.all (fun components => components.instructionBridge.wellShaped) = true

instance (client : AgentClient) (manifest : AdapterManifest) : Decidable (manifest.Valid client) :=
  decidable_of_iff ((manifest.skills.map InstalledSkill.name).Nodup ∧
      ((manifest.skills.flatMap InstalledSkill.outputs).map Prod.fst).Nodup ∧ (∀ skill ∈ manifest.skills, skill.wellShaped client = true) ∧
      manifest.components.all (fun components => components.instructionBridge.wellShaped) = true)
    ⟨fun held => ⟨held.1, held.2.1, held.2.2.1, held.2.2.2⟩, fun valid => ⟨valid.names, valid.outputs, valid.shapes, valid.bridge⟩⟩

/-- A manifest that its model and the checks of its targets have accepted -/
structure InstalledManifest (client : AgentClient) extends AdapterManifest where
  valid : toAdapterManifest.Valid client

/-! The project -/

/-- The readers and writers, and the hashes of the context templates of bridges that were ever shipped -/
structure Environment where
  kit : Kit
  upper : Json.Points → Json.Points
  loadManifest : (client : AgentClient) → Bytes → Except AdapterError (InstalledManifest client)
  dumpManifest : AdapterManifest → Bytes
  mcpEquivalent : AgentClient → Bytes → Bool
  templateBridgeHashes : AgentClient → List String

structure TrustedInstallRecord where
  trustedManifestDigest : Option String
  pendingTransition : Bool
deriving DecidableEq

/-- What a plan is made of; the bridge is the template with the personalization of the project. -/
structure Project where
  client : AgentClient
  isContext : Bool
  tree : Option SkillTree
  others : ProjectPath → Option Bytes
  overrideFiles : List (String × Bytes)
  package : Directory CanonicalPath Bytes
  bridgeContent : Bytes
  bridgeTemplate : Bytes
  record : Except String (Option TrustedInstallRecord)
  now : String

def Project.file (project : Project) : ProjectPath → Option Bytes
  | .canonical path => (treeFiles project.tree).get path
  | path => project.others path

/-! Rendered files -/

/-- `{key: value, ...}`: the last of two equal keys counts. -/
def dictOf {κ α : Type} [DecidableEq κ] (entries : List (κ × α)) : Directory κ α :=
  entries.foldl (fun directory entry => directory.put entry.1 entry.2) []

section
variable (environment : Environment)

/-- The check of an auxiliary file among the keys of those before it -/
def renderResource (keys : List String) (resource : CanonicalResource) : Except AdapterError (List String) := do
  let _ ← (validateRelativePath environment.upper (pointsOf resource.relativePath)).mapError AdapterError.state
  let key := environment.kit.collisionKey resource.relativePath
  if key = environment.kit.collisionKey "SKILL.md" then .error (.state "Auxiliary resources cannot replace SKILL.md")
  else if key ∈ keys then .error (.state "Auxiliary resource paths collide")
  else .ok (key :: keys)

/-- The generated files of `_render_source_skill`; Codex reads the canonical tree, and owns only the primary file of an override. -/
def renderSourceSkill (client : AgentClient) (skill : CanonicalSkill) : Except AdapterError (List (ProjectPath × Bytes)) :=
  if client = .codex then
    .ok (if skill.override.isSome then [(targetPath client skill.name "SKILL.md", skill.content)] else [])
  else do
    let primary ← (renderSkillPrimary skill.content skill.sideEffectClass.toList (skill.resources.map fun resource =>
      (pointsOf resource.relativePath, (environment.kit.contentHash resource.content).toList))).mapError AdapterError.state
    let _ ← skill.resources.foldlM (renderResource environment) [environment.kit.collisionKey "SKILL.md"]
    .ok ((targetPath client skill.name "SKILL.md", primary) ::
      (skill.resources.map fun resource => (targetPath client skill.name resource.relativePath, resource.content)).insertionSort
        fun one two => one.1.text true ≤ two.1.text true)

end

def renderMcpConfiguration (client : AgentClient) : Bytes :=
  encodeUtf8 (if client = .codex then
    "[mcp_servers.workctx]\ncommand = \"workctx\"\nargs = [\"mcp\", \"serve\", \"--context\", \".\"]\n".toList
  else
    ("\x7b\n  \"mcpServers\": \x7b\n    \"workctx\": \x7b\n      \"command\": \"workctx\",\n      \"args\": [\n        \"mcp\",\n" ++
      "        \"serve\",\n        \"--context\",\n        \".\"\n      ]\n    \x7d\n  \x7d\n\x7d\n").toList)

/-! Inventories -/

def generatedSkillInventory (manifest : Option AdapterManifest) : Directory ProjectPath String :=
  dictOf ((manifest.map fun manifest => manifest.skills.flatMap InstalledSkill.outputs).getD [])

def generatedMcp (client : AgentClient) (manifest : Option AdapterManifest) : List (ProjectPath × String) :=
  match manifest.bind AdapterManifest.components with
  | some components =>
    match components.mcpConfiguration with
    | .generated contentHash => [(.mcp client, contentHash)]
    | _ => []
  | none => []

def generatedInventory (client : AgentClient) (manifest : Option AdapterManifest) : Directory ProjectPath String :=
  (generatedMcp client manifest).foldl (fun directory entry => directory.put entry.1 entry.2) (generatedSkillInventory manifest)

def backupsOf (manifest : Option AdapterManifest) : List BackupEntry := (manifest.map AdapterManifest.backups).getD []

def oldBridge (manifest : Option AdapterManifest) : Option InstructionBridge :=
  (manifest.bind AdapterManifest.components).map AdapterComponents.instructionBridge

/-- The outputs of a skill are its primary file under the canonical path. -/
def InstalledSkill.ownsPrimary (skill : InstalledSkill) : Bool :=
  !skill.outputs.isEmpty && skill.outputs.all fun output => output.1 == .canonical (primaryPath skill.name)

def removedCodexOverrideNames (client : AgentClient) (manifest : Option AdapterManifest) (overrides : List SkillOverride) : List String :=
  if client = .codex then
    (((manifest.map AdapterManifest.skills).getD []).filter fun skill =>
      skill.ownsPrimary && !overrides.any (·.skill == skill.name)).map InstalledSkill.name
  else []

def codexOverrideTakeoverHashes (client : AgentClient) (manifest : Option AdapterManifest) (sources : CanonicalSourceSet) :
    Directory ProjectPath String :=
  if client = .codex then
    dictOf (sources.skills.filterMap fun skill => do
      let override ← skill.override
      let manifest ← manifest
      let entry ← manifest.skills.find? (·.name == skill.name)
      let adoption ← override.packagedAtAdoptionHash
      match entry.mode with
      | .generated _ => none
      | .nativeVerified files =>
        if entry.canonicalHash = adoption ∧ files.lookup "SKILL.md" = some adoption then
          some (.canonical (primaryPath skill.name), adoption)
        else none)
  else []

end Workctx.Adapters.Plans
