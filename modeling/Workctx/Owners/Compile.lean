import Workctx.Engine.Proposal
import Workctx.Owners.Lookup

/-! The compilation of a proposal: the files it would leave, and the collisions of the identities in them. -/

namespace Workctx.Owners
open Workctx.Text Workctx.Concurrent Workctx.Domain Workctx.Engine

abbrev Files := Directory String Bytes

/-- The files that a proposal addresses, with what it leaves of them. -/
abbrev FinalFiles := List (String × Option Bytes)

inductive PayloadDocument where
  | entity (uri : String) (observations : List (Nat × String))
  | claim (id : String)
  | observation (id : String)
  | manifest

structure Compiler where
  platform : Platform
  projection : Projection
  payloadDocument : DocumentPayload → PayloadDocument
  /-- `_prepare_document`: the rendered bytes; none where the store refuses the document or its path. -/
  prepareDocument : String → DocumentPayload → Option Bytes
  /-- `_require_stable_update_identity` -/
  stableIdentity : String → DocumentPayload → Bytes → Bool
  /-- `_validate_move_destination` -/
  validDestination : String → String → Bytes → Bool
  contentHash : Bytes → String
  /-- `target_path.parent.is_dir()` -/
  hasParent : Files → String → Bool
  /-- What else the analysis asks of a proposal, its approval, and the validation behind its change -/
  admits : TransactionProposal platform → Files → FinalFiles → Bool

def identityCollision (message : String) (path repair : String) : TransactionDiagnostic :=
  ⟨"TXN-IDENTITY-COLLISION", .error, message, some path, some repair⟩

def artifactCollision (message : String) (path repair : String) : TransactionDiagnostic :=
  ⟨"TXN-ARTIFACT-IDENTITY-COLLISION", .error, message, some path, some repair⟩

namespace Compiler
variable (compiler : Compiler)

def models : Models := compiler.projection.models

def contextId : String := compiler.projection.contextId

/-! Payloads. -/

/-- `_payload_identities`: the URIs of a payload with their places; none where one is invalid. -/
def payloadIdentities (payload : DocumentPayload) : Option (List (String × String)) :=
  match compiler.payloadDocument payload with
  | .entity uri observations => do
    let embedded ← observations.mapM fun observation => (recordUri compiler.contextId "observation" observation.2).map fun uri =>
      (uri, ".document.observations[" ++ toString observation.1 ++ "].id")
    some ((uri, ".document.id") :: embedded)
  | .claim id => (recordUri compiler.contextId "claim" id).map fun uri => [(uri, ".document.id")]
  | .observation id => (recordUri compiler.contextId "observation" id).map fun uri => [(uri, ".document.id")]
  | .manifest => some []

/-- The identities of a payload behind those of the earlier ones, each with its place in the proposal. -/
def collectIdentities (payloadPath : String) :
    List (String × String) → List (String × String) → List TransactionDiagnostic × List (String × String)
  | known, [] => ([], known)
  | known, (identity, location) :: rest =>
    if (known.map Prod.fst).contains identity then
      let (diagnostics, all) := collectIdentities payloadPath known rest
      (identityCollision "A staged document identity occurs more than once." (payloadPath ++ location)
        "Keep exactly one staged owner for each identity." :: diagnostics, all)
    else collectIdentities payloadPath (known ++ [(identity, payloadPath ++ location)]) rest

/-! Operations. -/

/-- What one operation leaves of the files it addresses; none where it is refused. -/
def compileOperation (files : Files) : TransactionOperation → Option FinalFiles
  | .create target payload => do
    let content ← compiler.prepareDocument target payload
    if (files.get target).isNone && compiler.hasParent files target then some [(target, some content)] else none
  | .update target payload expectedHash => do
    let content ← compiler.prepareDocument target payload
    let current ← files.get target
    if compiler.contentHash current == expectedHash && compiler.stableIdentity target payload current then
      some [(target, some content)]
    else none
  | .move source destination expectedHash => do
    let current ← files.get source
    if compiler.contentHash current == expectedHash && (files.get destination).isNone && compiler.hasParent files destination &&
        compiler.validDestination source destination current then
      some [(source, none), (destination, some current)]
    else none
  | .deleteGenerated target expectedHash => do
    let current ← files.get target
    if compiler.contentHash current == expectedHash then some [(target, none)] else none

def payloadOf : TransactionOperation → Option DocumentPayload
  | .create _ payload => some payload
  | .update _ payload _ => some payload
  | _ => none

/-- The loop of `_compile` -/
def compileOperations (files : Files) : Nat → List (String × String) → List TransactionOperation →
    Option (FinalFiles × List TransactionDiagnostic × List (String × String))
  | _, known, [] => some ([], [], known)
  | order, known, operation :: rest => do
    let own ← compiler.compileOperation files operation
    let identities ← (payloadOf operation).elim (some []) compiler.payloadIdentities
    let collected := collectIdentities ("operations[" ++ toString order ++ "].payload") known identities
    let (final, diagnostics, locations) ← compileOperations files (order + 1) collected.2 rest
    some (own ++ final, collected.1 ++ diagnostics, locations)

/-! Manifests. -/

/-- `_canonical_manifest_paths` of an artifact -/
def manifestPaths (files : Files) (artifactId : String) : List String :=
  (files.filter fun entry => isManifestPath entry.1 &&
    (manifestIdentity compiler.models compiler.contextId entry.1 entry.2).any fun identity => identity.1 == artifactId).map Prod.fst

/-- `_final_artifact_manifests`: the paths with the artifacts; none where a manifest is invalid. -/
def finalManifests (final : FinalFiles) : Option (List (String × String)) :=
  let staged := final.filterMap fun entry => if isManifestPath entry.1 then entry.2.map fun content => (entry.1, content) else none
  (staged.mergeSort fun one two => decide (one.1 ≤ two.1)).mapM fun entry =>
    (compiler.models.artifact entry.1 entry.2).map fun manifest => (entry.1, manifest.2)

/-- The collisions of the manifests, behind those that were seen. -/
def manifestDiagnostics (files : Files) (final : FinalFiles) : List String → List (String × String) → List TransactionDiagnostic
  | _, [] => []
  | seen, (path, artifactId) :: rest =>
    (if seen.contains artifactId then
      [artifactCollision "A final artifact identity has more than one manifest owner." path
        "Keep exactly one final manifest per artifact ID."]
    else []) ++
    (if (compiler.manifestPaths files artifactId).any fun owner => !(final.map Prod.fst).contains owner then
      [artifactCollision "A final artifact identity already has an untouched manifest owner." path
        "Update or move the current manifest in the same proposal, or allocate a new artifact ID."]
    else []) ++ manifestDiagnostics files final (seen ++ [artifactId]) rest

/-! Documents. -/

/-- `_canonical_outbox_identity_paths` -/
def outboxPaths (files : Files) (identity : String) : List String :=
  (files.filter fun entry => isScannedOutboxPath entry.1 &&
    (markdownIdentities compiler.models compiler.contextId entry.2).any fun identities => identities.contains identity).map Prod.fst

/-- `_projection_record_is_current` -/
def recordIsCurrent (files : Files) (identity path : String) : Bool :=
  (zoneOf path == some .knowledge || zoneOf path == some .work) &&
    ((files.get path).bind (markdownIdentities compiler.models compiler.contextId)).any fun identities => identities.contains identity

/-- The current owners of an identity; none where the projection refuses the URI. -/
def currentPaths (documents : List ParsedDocument) (files : Files) (identity : String) : Option (List String) :=
  (compiler.projection.getDocumentByUri documents identity).map fun record =>
    compiler.outboxPaths files identity ++ (record.filter (compiler.recordIsCurrent files identity)).toList

/-- The documents that a proposal leaves in the narrative zones -/
def stagedDocuments (final : FinalFiles) : List (String × Bytes) :=
  final.filterMap fun entry => if isNarrativePath entry.1 then entry.2.map fun content => (entry.1, content) else none

/-- `overlay_owners`: the identities with the paths of the documents -/
def overlayOwners (final : FinalFiles) : List (String × String) :=
  (stagedDocuments final).flatMap fun entry =>
    ((markdownIdentities compiler.models compiler.contextId entry.2).getD []).map fun identity => (identity, entry.1)

def invalidDiagnostics (final : FinalFiles) : List TransactionDiagnostic :=
  (stagedDocuments final).flatMap fun entry =>
    if (markdownIdentities compiler.models compiler.contextId entry.2).isNone then
      [⟨"TXN-DOCUMENT-INVALID", .error, "A staged narrative document has invalid record identities.", some entry.1,
        some "Correct the staged document identities."⟩]
    else []

def ownerDiagnostics (documents : List ParsedDocument) (files : Files) (final : FinalFiles) (locations : List (String × String))
    (identity : String) : Option (List TransactionDiagnostic) := do
  let staged := (((compiler.overlayOwners final).filter fun owner => owner.1 == identity).map Prod.snd).eraseDups
  let path := (locations.lookup identity).getD ((staged.mergeSort fun one two => decide (one ≤ two)).headD "")
  let current ← compiler.currentPaths documents files identity
  some (
    (if 1 < staged.length then
      [identityCollision "A final staged identity has more than one document owner." path
        "Keep exactly one final owner for each identity."]
    else []) ++
    if current.any fun owner => !(final.map Prod.fst).contains owner then
      [identityCollision "A final staged identity already has an untouched canonical owner." path
        "Update or move the current owner in the same proposal, or use a new identity."]
    else [])

/-- `_overlay_identity_collision_diagnostics` -/
def overlayDiagnostics (documents : List ParsedDocument) (files : Files) (final : FinalFiles) (locations : List (String × String)) :
    Option (List TransactionDiagnostic) := do
  let identities := ((compiler.overlayOwners final).map Prod.fst).eraseDups.mergeSort fun one two => decide (one ≤ two)
  let collisions ← identities.mapM (compiler.ownerDiagnostics documents files final locations)
  some (compiler.invalidDiagnostics final ++ collisions.flatten)

/-! Proposals. -/

def compile (documents : List ParsedDocument) (files : Files) (operations : List TransactionOperation) :
    Option (FinalFiles × List TransactionDiagnostic) := do
  let (final, diagnostics, locations) ← compiler.compileOperations files 0 [] operations
  let manifests ← compiler.finalManifests final
  let overlay ← compiler.overlayDiagnostics documents files final locations
  some (final, diagnostics ++ compiler.manifestDiagnostics files final [] manifests ++ overlay)

def overlay (files : Files) : FinalFiles → Files
  | [] => files
  | (path, some content) :: rest => overlay (files.put path content) rest
  | (path, none) :: rest => overlay (files.erase path) rest

/-- The files behind a proposal that `apply` commits -/
def commit (proposal : TransactionProposal compiler.platform) (files : Files) : Option Files :=
  let (documents, skipped) := compiler.projection.rebuild files
  if !skipped.isEmpty then none
  else
    match compiler.compile documents files proposal.operations with
    | none => none
    | some (final, diagnostics) =>
      if diagnostics.any isError || !compiler.admits proposal files final then none else some (overlay files final)

end Compiler
end Workctx.Owners
