import Workctx.Adapters.Projects

/-! Plans of an adapter: what an installation, a repair or an uninstallation writes and deletes, and when it only reports. -/

namespace Workctx.Adapters.Plans
open Workctx.Concurrent Workctx.Text

inductive OperationAction where
  | install
  | repair
  | uninstall
deriving DecidableEq

/-- `FileMutation`, with the bytes that its path is expected to have; the file is deleted when it has no content. -/
structure FileMutation where
  path : ProjectPath
  expected : Option Bytes
  content : Option Bytes
deriving DecidableEq

inductive FileOperation where
  | create
  | replace
  | delete
deriving DecidableEq

def FileMutation.operation (mutation : FileMutation) : FileOperation :=
  if mutation.content.isNone then .delete else if mutation.expected.isSome then .replace else .create

structure AdapterPlan where
  action : OperationAction
  mutations : List FileMutation
  blockedReason : Option String

def reportOnlyPlan (action : OperationAction) (reason : String) : AdapterPlan := ⟨action, [], some reason⟩

section
variable (environment : Environment) (project : Project)

def observedHash (path : ProjectPath) : Option String := (project.file path).map environment.kit.contentHash

def mutationTo (path : ProjectPath) (content : Option Bytes) : FileMutation := ⟨path, project.file path, content⟩

def manifestPath : ProjectPath := .manifest project.client

def manifestFromSnapshot : Except AdapterError (Option (InstalledManifest project.client)) :=
  match project.file (manifestPath project) with
  | none => .ok none
  | some content => (environment.loadManifest project.client content).map some

/-! Sources -/

/-- The native skills of a manifest, which are all that the selection reads of it -/
def AdapterManifest.tracked (manifest : AdapterManifest) : Adapters.AdapterManifest where
  registryHash := manifest.registryHash
  skills := manifest.skills.filterMap fun skill =>
    match skill.mode with
    | .nativeVerified files => some ⟨skill.name, skill.canonicalHash, .nativeVerified files⟩
    | .generated _ => none

/-- The packaged skills of a context have no others among them. -/
def requirePlaced (localSources packaged : CanonicalSourceSet) : Except AdapterError Unit :=
  let misplaced := localSources.skills.filter fun skill => !skill.custom && !packaged.skills.any (·.name == skill.name)
  if misplaced.isEmpty then .ok ()
  else .error (.registryInvalid ("The packaged skills section contains context-local entries: " ++
    ", ".intercalate ((misplaced.map (·.name)).insertionSort (· ≤ ·)) ++ "."))

def loadSourceSelection (old : Option AdapterManifest) : Except AdapterError SourceSelection := do
  let overrides ← loadSkillOverrides environment.kit project.package (if project.isContext then project.overrideFiles else [])
  let loaded ← loadCanonicalSources environment.kit project.tree project.package overrides
  let restoreNames := removedCodexOverrideNames project.client old overrides
  let localSources ← restorePackagedSkillSources environment.kit project.package loaded restoreNames
  if project.isContext then do
    let packaged ← loadPackagedSources environment.kit project.package []
    requirePlaced localSources packaged
    match old with
    | none => .ok ⟨localSources, [], [], [], none, restoreNames⟩
    | some manifest =>
      if project.client = .codex then
        selectCodexContextSources environment.kit localSources packaged (AdapterManifest.tracked manifest) restoreNames
      else .ok ⟨localSources, [], [], [], none, restoreNames⟩
  else .ok ⟨localSources, [], [], [], none, restoreNames⟩

/-! Authority -/

def TrustedInstallRecord.authenticates (record : TrustedInstallRecord) (digest : String) : Bool :=
  !record.pendingTransition && record.trustedManifestDigest == some digest

/-- `_install_record_for_plan`: why the manifest is not trusted -/
def installRecordError : Option String :=
  match project.record with
  | .error error => some ("Trusted install record cannot authenticate this plan: " ++ error)
  | .ok record =>
    if record.any TrustedInstallRecord.pendingTransition then
      some "Trusted install record has a pending transition; run recovery before planning another mutation"
    else match observedHash environment project (manifestPath project) with
      | some digest =>
        if record.any (TrustedInstallRecord.authenticates · digest) then none
        else some "Project manifest digest does not match the stable trusted user-config install record"
      | none =>
        if record.isSome then some "Trusted user-config install record exists while the project manifest is absent" else none

/-- The recorded hashes that an untracked project has to have, in the order of their first paths -/
def adoptionEntries (manifest : AdapterManifest) : List (ProjectPath × String) :=
  (.canonical registryPath, manifest.registryHash) ::
    (manifest.skills.flatMap fun skill => (.canonical (primaryPath skill.name), skill.canonicalHash) ::
      match skill.mode with
      | .nativeVerified files => files.map fun file => (.canonical (.skill skill.name file.1), file.2)
      | .generated outputs => outputs) ++
    (match manifest.components with
    | none => []
    | some components => (.bridge project.client, components.instructionBridge.targetHash) ::
      match components.mcpConfiguration with
      | .notImplemented => []
      | .generated contentHash | .native contentHash | .divergent contentHash => [(.mcp project.client, contentHash)]) ++
    manifest.backups.map fun backup => (.backup backup.path, backup.contentHash)

/-- `_prepare_untracked_adoption`; the plan of an exact project state writes no file. -/
def prepareUntrackedAdoption (manifest : AdapterManifest) : Except AdapterError AdapterPlan :=
  let conflicting := (adoptionEntries project manifest).any fun entry =>
    (adoptionEntries project manifest).any fun other => other.1 == entry.1 && other.2 != entry.2
  if conflicting then .error (.state "Untracked manifest assigns conflicting hashes to one project path")
  else if (adoptionEntries project manifest).all fun entry => observedHash environment project entry.1 == some entry.2 then
    .ok ⟨.install, [], none⟩
  else .ok (reportOnlyPlan .install "Untracked adapter state does not exactly match its complete manifest")

/-! Installation and repair -/

/-- What an installation wants: the rendered outputs, the restored primary files and the bridge -/
structure Desired where
  sources : CanonicalSourceSet
  outputs : Directory ProjectPath Bytes
  restored : Directory ProjectPath Bytes

def desiredOf (selection : SourceSelection) : Except AdapterError Desired := do
  let rendered ← selection.sources.skills.mapM (renderSourceSkill environment project.client)
  .ok ⟨selection.sources, dictOf rendered.flatten,
    dictOf ((selection.sources.skills.filter fun skill => selection.restoreNames.contains skill.name).map fun skill =>
      (.canonical (primaryPath skill.name), skill.content))⟩

/-- `desired_managed_hashes` -/
def Desired.managedHash (desired : Desired) (path : ProjectPath) : Option String :=
  if path = .mcp project.client then some (environment.kit.contentHash (renderMcpConfiguration project.client))
  else ((desired.restored.get path).or (desired.outputs.get path)).map environment.kit.contentHash

/-- An output that is neither as recorded nor as wanted -/
def editedOutputs (old : Option AdapterManifest) (desired : Desired) : Bool :=
  (generatedInventory project.client old).any fun output =>
    (observedHash environment project output.1).isSome && observedHash environment project output.1 != some output.2 &&
      observedHash environment project output.1 != desired.managedHash environment project output.1

/-- A canonical file that is not what a change of it was decided for -/
def driftedSources (selection : SourceSelection) : Bool :=
  selection.changes.any fun change => observedHash environment project (.canonical change.path) != change.authorityHash

def bridgeHash : String := environment.kit.contentHash project.bridgeContent

/-- A generated bridge that is neither as recorded nor as wanted -/
def editedBridge (old : Option AdapterManifest) : Bool :=
  (oldBridge old).any fun bridge =>
    bridge.ownership == .generated && (observedHash environment project (.bridge project.client)).isSome &&
      observedHash environment project (.bridge project.client) != some bridge.targetHash &&
      observedHash environment project (.bridge project.client) != some (bridgeHash environment project)

def lostBackups (old : Option AdapterManifest) : Bool :=
  (backupsOf old).any fun backup => observedHash environment project (.backup backup.path) != some backup.contentHash

/-- A file that stands where an output is wanted, and that neither a manifest nor the adoption of an override accounts for -/
def untrackedConflicts (old : Option AdapterManifest) (desired : Desired) : Bool :=
  desired.outputs.any fun output =>
    ((generatedSkillInventory old).get output.1).isNone && (observedHash environment project output.1).isSome &&
      observedHash environment project output.1 !=
        (codexOverrideTakeoverHashes project.client old desired.sources).get output.1

def authorityFails (old : Option AdapterManifest) (selection : SourceSelection) (desired : Desired) : Bool :=
  editedOutputs environment project old desired || driftedSources environment project selection ||
    editedBridge environment project old || lostBackups environment project old || untrackedConflicts environment project old desired

def sortedPaths {α : Type} (directory : Directory ProjectPath α) : Directory ProjectPath α :=
  directory.insertionSort fun one two => one.1.text project.isContext ≤ two.1.text project.isContext

def canonicalMutation (change : CanonicalFileChange) : Option FileMutation :=
  if observedHash environment project (.canonical change.path) = change.content.map environment.kit.contentHash then none
  else some (mutationTo project (.canonical change.path) change.content)

def seedFiles (sources : CanonicalSourceSet) : Directory ProjectPath Bytes :=
  if project.client = .codex ∧ sources.origin = .packaged then
    dictOf ((.canonical registryPath, sources.registryContent) ::
      ((sources.skills.filter (·.override.isNone)).map fun skill => (.canonical (primaryPath skill.name), skill.content)) ++
      sources.skills.flatMap fun skill => skill.resources.map fun resource =>
        (.canonical (.skill skill.name resource.relativePath), resource.content))
  else []

def recordedOutput (old : Option AdapterManifest) (desired : Desired) (path : ProjectPath) : Option String :=
  ((generatedSkillInventory old).get path).or ((codexOverrideTakeoverHashes project.client old desired.sources).get path)

def outputBlocked (old : Option AdapterManifest) (desired : Desired) (output : ProjectPath × Bytes) : Option String :=
  if (recordedOutput project old desired output.1).isNone ∧ (project.file output.1).isSome then
    some ("Untracked desired target already exists: " ++ output.1.text project.isContext)
  else none

def outputMutation (old : Option AdapterManifest) (desired : Desired) (output : ProjectPath × Bytes) : Option FileMutation :=
  if (outputBlocked project old desired output).isSome then none
  else if observedHash environment project output.1 = some (environment.kit.contentHash output.2) then none
  else some (mutationTo project output.1 (some output.2))

/-- An output that is wanted no more is restored or deleted. -/
def obsoleteMutation (desired : Desired) (path : ProjectPath) : Option FileMutation :=
  if (project.file path).isNone then none
  else match desired.restored.get path with
    | some content =>
      if observedHash environment project path = some (environment.kit.contentHash content) then none
      else some (mutationTo project path (some content))
    | none => some (mutationTo project path none)

def obsoletePaths (old : Option AdapterManifest) (desired : Desired) : List ProjectPath :=
  (sortedPaths project ((generatedSkillInventory old).filter fun output => (desired.outputs.get output.1).isNone)).map Prod.fst

/-- What `_plan_bridge` adds to a plan, and what it records of the bridge -/
structure BridgePlan where
  mutation : Option FileMutation
  blocked : Option String
  ownership : BridgeOwnership
  targetHash : String

def planBridge (old : Option AdapterManifest) : BridgePlan :=
  let path := ProjectPath.bridge project.client
  let written : BridgePlan :=
    ⟨some (mutationTo project path (some project.bridgeContent)), none, .generated, bridgeHash environment project⟩
  match oldBridge old, observedHash environment project path with
  | some ⟨.userOwned, _, target⟩, observed =>
    match observed with
    | some own => if own ∈ environment.templateBridgeHashes project.client then written else ⟨none, none, .userOwned, own⟩
    | none => ⟨none, none, .userOwned, target⟩
  | _, none => written
  | none, some own => if own ∈ environment.templateBridgeHashes project.client then written else ⟨none, none, .userOwned, own⟩
  | some ⟨.generated, _, target⟩, some own =>
    if own ≠ target ∧ own = bridgeHash environment project then ⟨none, none, .generated, bridgeHash environment project⟩
    else if own ≠ target then
      ⟨none, some "Generated instruction bridge differs from its authenticated manifest record", .generated, target⟩
    else if own ≠ bridgeHash environment project then written
    else ⟨none, none, .generated, bridgeHash environment project⟩

def planMcpConfiguration (old : Option AdapterManifest) : Option FileMutation × McpConfiguration :=
  let path := ProjectPath.mcp project.client
  let desired := renderMcpConfiguration project.client
  let desiredHash := environment.kit.contentHash desired
  let kept (content : Bytes) : McpConfiguration :=
    if environment.mcpEquivalent project.client content then .native (environment.kit.contentHash content)
    else .divergent (environment.kit.contentHash content)
  match (old.bind AdapterManifest.components).map AdapterComponents.mcpConfiguration, project.file path with
  | some (.native contentHash), none | some (.divergent contentHash), none => (none, .divergent contentHash)
  | some (.native _), some content | some (.divergent _), some content => (none, kept content)
  | none, some content | some .notImplemented, some content => (none, kept content)
  | _, none => (some (mutationTo project path (some desired)), .generated desiredHash)
  | some (.generated _), some content =>
    (if environment.kit.contentHash content = desiredHash then none else some (mutationTo project path (some desired)), .generated desiredHash)

/-- The recorded source of a bridge that is neither it nor what is packaged now, which `_bridge_managed_file_state` preserves -/
def preservedBridgeSource (old : Option AdapterManifest) : Option String := do
  let bridge ← oldBridge old
  let own ← observedHash environment project (.bridge project.client)
  if own = bridge.sourceHash ∨ own = (if bridge.ownership = .generated then bridgeHash environment project
      else environment.kit.contentHash project.bridgeTemplate) then none
  else some bridge.sourceHash

/-- `_build_manifest`; the manifest is checked as it is made. -/
def buildManifest (old : Option AdapterManifest) (selection : SourceSelection) (bridge : BridgePlan) (mcp : McpConfiguration)
    (generatedAt : String) : Except AdapterError (InstalledManifest project.client) := do
  let recorded (path : CanonicalPath) (digest : String) := (selection.preservedSourceHashes.lookup path).getD digest
  let skills ← selection.sources.skills.mapM fun skill => do
    let outputs ← renderSourceSkill environment project.client skill
    .ok {
      name := skill.name
      canonicalHash := recorded (primaryPath skill.name) (environment.kit.contentHash skill.content)
      mode := if project.client = .codex ∧ skill.override.isNone then
          .nativeVerified ((skill.files.map fun file =>
            (file.1, recorded (.skill skill.name file.1) (environment.kit.contentHash file.2))).insertionSort (·.1 ≤ ·.1))
        else .generated (outputs.map fun output => (output.1, environment.kit.contentHash output.2)) : InstalledSkill }
  let source := (preservedBridgeSource environment project old).getD (if bridge.ownership = .generated then bridgeHash environment project
    else environment.kit.contentHash project.bridgeTemplate)
  let manifest : AdapterManifest := {
    generatedAt
    registryHash := selection.preservedRegistryHash.getD (environment.kit.contentHash selection.sources.registryContent)
    skills
    components := some ⟨⟨bridge.ownership, source, bridge.targetHash⟩, mcp⟩
    backups := backupsOf old }
  if valid : manifest.Valid project.client then .ok ⟨manifest, valid⟩
  else .error (.state "Adapter manifest violates its typed contract")

def nextManifestBytes (old : Option AdapterManifest) (selection : SourceSelection) (bridge : BridgePlan) (mcp : McpConfiguration) :
    Except AdapterError Bytes := do
  let kept ← buildManifest environment project old selection bridge mcp ((old.map AdapterManifest.generatedAt).getD project.now)
  match project.file (manifestPath project) with
  | none => .ok (environment.dumpManifest kept.toAdapterManifest)
  | some bytes =>
    if environment.dumpManifest kept.toAdapterManifest = bytes then .ok bytes
    else do
      let renewed ← buildManifest environment project old selection bridge mcp project.now
      .ok (environment.dumpManifest renewed.toAdapterManifest)

def plannedMutations (old : Option AdapterManifest) (selection : SourceSelection) (desired : Desired) : List FileMutation :=
  selection.changes.filterMap (canonicalMutation environment project) ++
    (sortedPaths project (seedFiles project desired.sources)).map (fun seed => mutationTo project seed.1 (some seed.2)) ++
    (sortedPaths project desired.outputs).filterMap (outputMutation environment project old desired) ++
    (obsoletePaths project old desired).filterMap (obsoleteMutation environment project desired) ++
    (planBridge environment project old).mutation.toList ++ (planMcpConfiguration environment project old).1.toList

def planTrusted (action : OperationAction) (old : Option AdapterManifest) (selection : SourceSelection) : Except AdapterError AdapterPlan := do
  let desired ← desiredOf environment project selection
  if authorityFails environment project old selection desired then
    .ok (reportOnlyPlan action "One or more mutation targets fail the three-factor authority check")
  else
    match (sortedPaths project (seedFiles project desired.sources)).find? fun seed => (project.file seed.1).isSome with
    | some seed => .ok (reportOnlyPlan action ("Packaged canonical seed target already exists: " ++ seed.1.text project.isContext))
    | none => do
      let mutations := plannedMutations environment project old selection desired
      let bytes ← nextManifestBytes environment project old selection (planBridge environment project old)
        (planMcpConfiguration environment project old).2
      let blocked := (sortedPaths project desired.outputs).filterMap (outputBlocked project old desired) ++
        (planBridge environment project old).blocked.toList
      let committed := if project.file (manifestPath project) = some bytes ∧ mutations = [] then []
        else [mutationTo project (manifestPath project) (some bytes)]
      .ok ⟨action, mutations ++ committed, if blocked = [] then none else some ("; ".intercalate blocked)⟩

def prepareInstallOrRepair (action : OperationAction) : Except AdapterError AdapterPlan := do
  let manifest ← manifestFromSnapshot environment project
  let old := manifest.map InstalledManifest.toAdapterManifest
  let selection ← loadSourceSelection environment project old
  match installRecordError environment project with
  | none => planTrusted environment project action old selection
  | some reason =>
    match old, project.record with
    | some own, .ok none =>
      if action = .install then prepareUntrackedAdoption environment project own else .ok (reportOnlyPlan action reason)
    | _, _ => .ok (reportOnlyPlan action reason)

/-! Uninstallation -/

/-- The primary files that are restored when the output of an override is removed -/
def uninstallRestores (manifest : AdapterManifest) : Except AdapterError (Directory ProjectPath Bytes) :=
  if project.client = .codex then do
    let restored ← (manifest.skills.filter InstalledSkill.ownsPrimary).mapM fun skill =>
      match project.package.get (primaryPath skill.name) with
      | some content => Except.ok (ProjectPath.canonical (primaryPath skill.name), content)
      | none => .error (.state ("Packaged agent kit file is missing: skills/" ++ skill.name ++ "/SKILL.md"))
    .ok (dictOf restored)
  else .ok []

def uninstallFails (manifest : AdapterManifest) : Bool :=
  (generatedInventory project.client (some manifest)).any (fun output =>
      (project.file output.1).isSome && observedHash environment project output.1 != some output.2) ||
    (oldBridge (some manifest)).any (fun bridge =>
      bridge.ownership == .generated && (project.file (.bridge project.client)).isSome &&
        observedHash environment project (.bridge project.client) != some bridge.targetHash) ||
    manifest.backups.any fun backup =>
      (project.file (.backup backup.path)).isSome && observedHash environment project (.backup backup.path) != some backup.contentHash

def uninstallOutput (restores : Directory ProjectPath Bytes) (path : ProjectPath) : Option FileMutation :=
  match restores.get path with
  | some content =>
    if observedHash environment project path = some (environment.kit.contentHash content) then none
    else some (mutationTo project path (some content))
  | none => if (project.file path).isSome then some (mutationTo project path none) else none

def uninstallBridge (manifest : AdapterManifest) : List FileMutation :=
  if (oldBridge (some manifest)).any (fun bridge => bridge.ownership == .generated) ∧ (project.file (.bridge project.client)).isSome then
    [mutationTo project (.bridge project.client) none]
  else []

def uninstallBackup (backup : BackupEntry) : Option FileMutation :=
  if observedHash environment project (.backup backup.path) = some backup.contentHash then
    some (mutationTo project (.backup backup.path) none)
  else none

def prepareUninstall : Except AdapterError AdapterPlan := do
  let manifest ← manifestFromSnapshot environment project
  match installRecordError environment project with
  | some reason => .ok (reportOnlyPlan .uninstall reason)
  | none =>
    match manifest.map InstalledManifest.toAdapterManifest with
    | none => .ok ⟨.uninstall, [], none⟩
    | some manifest =>
      if uninstallFails environment project manifest then
        .ok (reportOnlyPlan .uninstall "One or more manifest-listed targets fail the recorded content-hash factor")
      else do
        let restores ← uninstallRestores project manifest
        .ok ⟨.uninstall, (sortedPaths project (generatedInventory project.client (some manifest))).filterMap
            (fun output => uninstallOutput environment project restores output.1) ++ uninstallBridge project manifest ++
          manifest.backups.filterMap (uninstallBackup environment project) ++ [mutationTo project (manifestPath project) none], none⟩

/-- `plan_install`, `plan_repair` and `plan_uninstall` -/
def plan (action : OperationAction) : Except AdapterError AdapterPlan :=
  match action with
  | .uninstall => prepareUninstall environment project
  | action => prepareInstallOrRepair environment project action

end

end Workctx.Adapters.Plans
