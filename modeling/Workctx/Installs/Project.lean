import Workctx.Durable.Program

/-! One project with agent adapters: the target files, the evidence and the intent of a transaction,
and the trusted install records of the user. A file is known by its identity and the hash of its
bytes. -/

namespace Workctx.Installs
open Workctx.Durable

inductive AgentClient where
  | codex
  | claude
  | gemini
deriving DecidableEq

def AgentClient.value : AgentClient → String
  | .codex => "codex"
  | .claude => "claude"
  | .gemini => "gemini"

/-- `FileSnapshot` of a file that exists. -/
structure AdapterFile where
  identity : Nat
  contentHash : String
deriving DecidableEq

inductive FileOperation where
  | create
  | replace
  | delete
deriving DecidableEq

/-- `FileMutation`; the desired bytes are known by their hash. -/
structure FileMutation where
  path : String
  expected : Option AdapterFile
  desired : Option String
deriving DecidableEq

/-- An operation of an intent. The evidence paths are made of the directory and the index. -/
structure Operation where
  index : Nat
  operation : FileOperation
  target : String
  expected : Option String
  postimage : Option String
deriving DecidableEq

inductive EvidenceKind where
  | staged
  | verified
  | removed
deriving DecidableEq

/-- `intent.json`; it is torn while its bytes are being written. -/
inductive IntentFile where
  | absent
  | torn
  | written (client : AgentClient) (operations : List Operation)
deriving DecidableEq

structure InstallTransition where
  fromManifestDigest : Option String
  toManifestDigest : Option String
  operationsDigest : String
deriving DecidableEq

/-- `TrustedInstallRecord` of one client; a stable record has a digest, and a pending transition
starts from the trusted digest. -/
structure TrustedInstallRecord where
  trustedManifestDigest : Option String
  pendingTransition : Option InstallTransition
  consistent : match pendingTransition with
    | none => trustedManifestDigest.isSome = true
    | some transition => transition.fromManifestDigest = trustedManifestDigest
deriving DecidableEq

/-- A change of a target file, with the pending transition and the intent there were. -/
structure TargetChange where
  client : AgentClient
  pending : Option InstallTransition
  intent : IntentFile

/-- A write of a record: the digests before and behind it, the manifest on disk, the transition that
was resolved, and the operations of the intent retired since that transition began. -/
structure RecordChange where
  client : AgentClient
  before : Option String
  after : Option String
  manifest : Option String
  resolved : Option InstallTransition
  retired : Option (List Operation)

structure ProjectState where
  targets : String → Option AdapterFile
  evidence : EvidenceKind → Nat → Option AdapterFile
  intent : IntentFile
  fresh : Nat
  records : AgentClient → Option TrustedInstallRecord
  retired : AgentClient → Option (List Operation)
  targetChanges : List TargetChange
  recordChanges : List RecordChange

/-- The layout of a project, the functions over bytes, and the checks of path texts. -/
structure Site where
  isContext : Bool
  emptyHash : String
  operationsDigest : AgentClient → List Operation → String
  collisionKey : String → String
  relativePath : String → Bool
  credentialCapable : List String → Bool

/-- `derive_layout` -/
def manifestPath (site : Site) (client : AgentClient) : String :=
  (if site.isContext then "98_state/agent-adapters/" else ".workctx/agent-adapters/") ++ client.value ++ "/skill-manifest.json"

inductive InstallError where
  | value (message : String)
  | conflict (message : String)
  | recoveryRequired (message : String)
  | recoveryConflict (message : String)
  | invalidState (message : String)
  | fileSystem (message : String)
deriving DecidableEq

abbrev Action (α : Type) := Program ProjectState AdapterFile InstallError α

namespace ProjectState
variable (state : ProjectState)

def hashAt (path : String) : Option String := (state.targets path).map (·.contentHash)

def evidenceHash (kind : EvidenceKind) (index : Nat) : Option String := (state.evidence kind index).map (·.contentHash)

def pending (client : AgentClient) : Option InstallTransition := (state.records client).bind (·.pendingTransition)

def trusted (client : AgentClient) : Option String := (state.records client).bind (·.trustedManifestDigest)

def setTarget (path : String) (file : Option AdapterFile) : ProjectState :=
  { state with targets := Function.update state.targets path file }

def setEvidence (kind : EvidenceKind) (index : Nat) (file : Option AdapterFile) : ProjectState :=
  { state with evidence := Function.update state.evidence kind (Function.update (state.evidence kind) index file) }

end ProjectState

/-! Durable steps. -/

/-- `AdapterLock.heartbeat`; the lock is not in the state. -/
def heartbeat : Action Unit := .perform (.atomic id)

/-- The directory of a transaction; its name is drawn at random. -/
def makeDirectories : Action Unit := .perform (.atomic fun state => { state with evidence := fun _ _ => none })

/-- `SafeRoot.write_exclusive` of an evidence file. -/
def writeEvidence (kind : EvidenceKind) (index : Nat) (hash : String) : Action Unit := .perform {
  effect := fun state => { state.setEvidence kind index (some ⟨state.fresh, hash⟩) with fresh := state.fresh + 1 }
  torn := fun part state => state.setEvidence kind index (some part) }

def writeIntent (client : AgentClient) (operations : List Operation) : Action Unit := .perform {
  effect := fun state => { state with intent := .written client operations }
  torn := fun _ state => { state with intent := .torn } }

def changeTarget (client : AgentClient) (change : ProjectState → ProjectState) : Action Unit :=
  .perform (.atomic fun state =>
    { change state with targetChanges := ⟨client, state.pending client, state.intent⟩ :: state.targetChanges })

/-- `SafeRoot.reserve_empty` of a target. -/
def reserveTarget (site : Site) (client : AgentClient) (path : String) : Action Unit :=
  changeTarget client fun state =>
    { state.setTarget path (some ⟨state.fresh, site.emptyHash⟩) with fresh := state.fresh + 1 }

/-- `SafeRoot.replace` of a target by an evidence file. -/
def replaceTarget (client : AgentClient) (kind : EvidenceKind) (index : Nat) (path : String) : Action Unit :=
  changeTarget client fun state => (state.setTarget path (state.evidence kind index)).setEvidence kind index none

def ProjectState.newIdentity (state : ProjectState) (path : String) : Nat :=
  match state.targets path with
  | none => state.fresh
  | some file => max state.fresh (file.identity + 1)

/-- The reservation of `SafeRoot.move` from a target to the removed files. -/
def reserveRemoved (site : Site) (index : Nat) (path : String) : Action Unit :=
  .perform (.atomic fun state =>
    { state.setEvidence .removed index (some ⟨state.newIdentity path, site.emptyHash⟩) with fresh := state.newIdentity path + 1 })

/-- The replacement of `SafeRoot.move`. -/
def moveToRemoved (client : AgentClient) (index : Nat) (path : String) : Action Unit :=
  changeTarget client fun state => (state.setEvidence .removed index (state.targets path)).setTarget path none

def unlinkTarget (client : AgentClient) (path : String) : Action Unit :=
  changeTarget client fun state => state.setTarget path none

def unlinkEvidence (kind : EvidenceKind) (index : Nat) : Action Unit :=
  .perform (.atomic fun state => state.setEvidence kind index none)

def retireIntent (client : AgentClient) (operations : List Operation) : Action Unit :=
  .perform (.atomic fun state =>
    { state with intent := .absent, retired := Function.update state.retired client (some operations) })

def saveRecord (site : Site) (client : AgentClient) (record : Option TrustedInstallRecord)
    (resolved : Option InstallTransition) : Action Unit :=
  .perform (.atomic fun state => { state with
    records := Function.update state.records client record
    retired := if (record.bind (·.pendingTransition)).isSome then Function.update state.retired client none else state.retired
    recordChanges := ⟨client, state.trusted client, record.bind (·.trustedManifestDigest),
      state.hashAt (manifestPath site client), resolved, state.retired client⟩ :: state.recordChanges })
end Workctx.Installs
