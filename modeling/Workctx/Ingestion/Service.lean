import Mathlib.Data.List.Sort
import Workctx.Ingestion.Models
import Workctx.Text.Codec

/-! The ingestion service as clients of the workspace: `register`, `register_batch` and
`archive_after`. Every read of a file, of the directory of manifests and of the ledger, every
transaction and every move of one file is an action of its own. -/

namespace Workctx.Ingestion
open Workctx.Concurrent Workctx.Text Workctx.Domain Workctx.Staging Workctx.Engine Workctx.Services

/-- The errors of the service, with their own texts where the call gives one. -/
inductive IngestionError where
  | notFound (message : String)
  | read
  | state (message : String)
  | duplicate (duplicateOf : String)
  | receipt
  | recoveryPending
  | transaction (failure : Failure)
deriving DecidableEq

/-- The actions of the service. Of two it is said what they are: a transaction, with the manifest it
creates, and the move of a file that a manifest points to. -/
inductive Note where
  | plain
  | applies (created : Option ArtifactManifest) (proposal : Proposal)
  | moves (artifactId : String) (spec : MoveSpec)

/-- The workspace, with the staged move that is not finalized. -/
abbrev IngestionWorld := World (Option MoveIntent)

abbrev IngestionClient := Client IngestionWorld Note IngestionError

structure ManifestFormat where
  read : Bytes → Option ArtifactManifest
  render : ArtifactManifest → Bytes
  readBack : ∀ manifest, read (render manifest) = some manifest

/-- What a call draws: the policy of its scans, the clock, and the instants and tokens of its proposals. -/
structure IngestionDraws where
  /-- The media type and the reasons of `scan_artifact`, for a path, a declared media type and a content. -/
  scan : String → Option String → Bytes → String × List QuarantineReason
  clock : AwareDatetime
  attempts : Nat → AwareDatetime × String

/-- `ArtifactScan` of a path -/
structure ScannedPath where
  relativePath : String
  contentHash : String
  mediaType : String
  reasons : List QuarantineReason

section
variable (site : Site) (format : ManifestFormat)

/-! Reading. -/

def readFile (path : String) : IngestionClient (Option Bytes) := Client.observe .plain fun world => world.files.get path

def hashPreservedFile (path : String) : IngestionClient String := do
  let content ← readFile path
  match content with
  | none => .raise .read
  | some content => .ret (hashBytes site content)

def isFile (path : String) : IngestionClient Bool := Client.observe .plain fun world => (world.files.get path).isSome

/-- `inspect_recovery` and whether it is clean. -/
def recoveryClean : IngestionClient Bool := Client.observe .plain fun world => world.remote.isNone

def readManifests : List String → IngestionClient (List ArtifactRecord)
  | [] => .ret []
  | path :: rest => do
    let content ← readFile path
    match content.bind format.read with
    | none => .raise (.transaction (.otherOs))
    | some manifest => do
      let records ← readManifests rest
      .ret (⟨path, manifest⟩ :: records)

/-- `_records`, in the order of the identifiers -/
def records : IngestionClient (List ArtifactRecord) := do
  let paths ← Client.observe .plain fun world => (world.files.map Prod.fst).filter isManifestFile
  let found ← readManifests format (paths.insertionSort (· ≤ ·))
  .ensure (decide (found.map fun record => record.manifest.id).Nodup) (.state "Artifact manifests contain a duplicate ID.")
  .ret (found.insertionSort fun one two => one.manifest.id ≤ two.manifest.id)

def recordById (artifactId : String) : IngestionClient ArtifactRecord := do
  let existing ← records format
  match existing.filter fun record => record.manifest.id == artifactId with
  | [record] => .ret record
  | _ => .raise (.notFound "The requested artifact manifest was not found.")

/-! Transactions. -/

def artifactReference (manifest : ArtifactManifest) : String :=
  "artifact://sha256/" ++ String.ofList (manifest.contentHash.toList.drop 7)

/-- `authenticate_apply_result`, and the reference of an artifact in the event. -/
def authenticates (events : List Event) (receipt reference : String) : Bool :=
  events.any fun event =>
    event.proposal.id == receipt && event.result == .committed && event.proposal.sourceRefs.contains reference

def proposalId (createdAt : AwareDatetime) (action artifactId token : String) : String :=
  "TXP-" ++ site.utcStamp createdAt ++ "-" ++ artifactSlug site.library.unicode action.toList ++ "-" ++
    artifactSlug site.library.unicode (artifactId.toList.drop 4) ++ "-" ++ token

def manifestProposal (manifest : ArtifactManifest) (operation : FileOperation) (action : String)
    (draw : AwareDatetime × String) (base : String) : Proposal where
  id := proposalId site (normalizeTime draw.1) action manifest.id draw.2
  baseRevision := base
  actor := .system "workctx-ingestion"
  sourceRefs := [artifactReference manifest]
  operations := [operation]
  preconditions := []
  postconditions := []
  approvalRequired := false

/-- `apply`, while no staged move waits for its recovery; none for a stale revision. -/
def attempt (proposal : Proposal) (world : IngestionWorld) :
    Except IngestionError (Option (Except Failure Event) × IngestionWorld) :=
  if world.remote.isSome then .error (.transaction .recoveryPending)
  else match commit site proposal false world with
    | .error .staleRevision => .ok (none, world)
    | .error failure => .error (.transaction failure)
    | .ok (outcome, after) => .ok (some outcome, after)

/-- The attempts of `_apply_manifest_operation`. -/
def applyAttempts (created : Option ArtifactManifest) (manifest : ArtifactManifest) (operation : FileOperation) (action : String)
    (draws : Nat → AwareDatetime × String) : Nat → IngestionClient String
  | 0 => .raise (.transaction .staleRevision)
  | attempts + 1 => do
    let base ← Client.observe .plain fun world => site.revision world.events
    let proposal := manifestProposal site manifest operation action (draws attempts) base
    .ensure (acceptsProposal site proposal) (.transaction .proposalValidation)
    let outcome ← Client.transact (.applies created proposal) (attempt site proposal)
    match outcome with
    | none => applyAttempts created manifest operation action draws attempts
    | some (.ok event) => .ret event.proposal.id
    | some (.error failure) => .raise (.transaction failure)

def maxTransactionRetries : Nat := 4

def createManifest (manifest : ArtifactManifest) (draws : Nat → AwareDatetime × String) : IngestionClient String :=
  applyAttempts site (some manifest) manifest (.create (manifestPath manifest.id) (format.render manifest)) "register" draws
    maxTransactionRetries

def updateManifest (path : String) (manifest : ArtifactManifest) (action : String) (draws : Nat → AwareDatetime × String) :
    IngestionClient String := do
  let expectedHash ← hashPreservedFile site path
  applyAttempts site none manifest (.update path (format.render manifest) expectedHash) action draws maxTransactionRetries

/-! Moves. -/

inductive MoveState where
  | pending
  | applied
  | conflict
deriving DecidableEq

def specState (files : Files) (spec : MoveSpec) : MoveState :=
  let source := (files.get spec.source).map (hashBytes site)
  let destination := (files.get spec.destination).map (hashBytes site)
  if source = some spec.contentHash ∧ destination = none then .pending
  else if source = none ∧ destination = some spec.contentHash then .applied
  else .conflict

def moveState (files : Files) (specs : List MoveSpec) : MoveState :=
  if specs.all fun spec => specState site files spec == .pending then .pending
  else if specs.all fun spec => specState site files spec == .applied then .applied
  else .conflict

inductive MoveStart where
  | applied
  | started
  | resumed

/-- The part of `_move_with_receipt_under_lock` before the files are moved: the checks, and the intent
of a move that has not begun. -/
def startMove (receipt reference transactionId : String) (specs : List MoveSpec) (world : IngestionWorld) :
    Except IngestionError (MoveStart × IngestionWorld) :=
  if !authenticates world.events receipt reference then .error .receipt
  else match world.remote with
    | none =>
      match moveState site world.files specs with
      | .applied => .ok (.applied, world)
      | .pending => .ok (.started, { world with remote := some ⟨transactionId, specs⟩ })
      | .conflict => .error (.state "Evidence move paths are in a conflicting state.")
    | some intent =>
      if intent.transactionId ≠ transactionId then .error (.state "Another staged context mutation requires recovery.")
      else if intent.targets ≠ specs then .error (.state "The staged evidence move does not match this artifact.")
      else .ok (.resumed, world)

def moveFile (spec : MoveSpec) (world : IngestionWorld) : Except IngestionError (Unit × IngestionWorld) :=
  match specState site world.files spec with
  | .applied => .ok ((), world)
  | .pending =>
    match world.files.get spec.source with
    | none => .error .recoveryPending
    | some content => .ok ((), { world with files := (world.files.erase spec.source).put spec.destination content })
  | .conflict => .error .recoveryPending

def moveFiles (artifactId : String) : List MoveSpec → IngestionClient Unit
  | [] => .ret ()
  | spec :: rest => do
    Client.transact (.moves artifactId spec) (moveFile site spec)
    moveFiles artifactId rest

/-- `finalize_after_audit`, behind the second check of the receipt. -/
def finalizeMove (receipt reference : String) (world : IngestionWorld) : Except IngestionError (Unit × IngestionWorld) :=
  if authenticates world.events receipt reference then .ok ((), { world with remote := none }) else .error .recoveryPending

/-- `_move_with_receipt`: whether the files were moved before, and whether a move was recovered. -/
def moveWithReceipt (manifest : ArtifactManifest) (receipt transactionId : String) (specs : List MoveSpec) :
    IngestionClient (Bool × Bool) := do
  let reference := artifactReference manifest
  let start ← Client.transact .plain (startMove site receipt reference transactionId specs)
  match start with
  | .applied => .ret (true, false)
  | .started => do
    moveFiles site manifest.id specs
    Client.transact .plain (finalizeMove receipt reference)
    .ret (false, false)
  | .resumed => do
    moveFiles site manifest.id specs
    Client.transact .plain (finalizeMove receipt reference)
    .ret (false, true)

def moveManifest (action : String) (manifest : ArtifactManifest) (metadata : ManifestMetadata) (receipt : String) :
    IngestionClient (Bool × Bool) :=
  match moveSpecs manifest metadata with
  | none => .raise (.state (if action = "archive" then "Archive sidecar metadata is inconsistent."
      else "Quarantine sidecar metadata is inconsistent."))
  | some specs => moveWithReceipt site manifest receipt (moveTransactionId action manifest.id) specs

/-! `register`. -/

def persistQuarantineReceipt (path : String) (manifest : ArtifactManifest) (metadata : ManifestMetadata) (receipt : String)
    (draws : Nat → AwareDatetime × String) : IngestionClient (ArtifactManifest × String) := do
  let updated := { manifest with notes := some { metadata with quarantineReceipt := some receipt } }
  let stored ← updateManifest site format path updated "quarantine-receipt" draws
  .ret (updated, stored)

/-- A registered manifest without its file, in the order of the candidates. -/
def replayMoved (request : RegisterRequest) : List (ArtifactRecord × ManifestMetadata) → IngestionClient (Option ArtifactRecord)
  | [] => .ret none
  | (record, metadata) :: rest =>
    if (metadata.sidecars.map SidecarMetadata.sourcePath) = request.sidecars ∧
        (record.manifest.status = .quarantined ∨ record.manifest.status = .processed) then do
      let preserved ← isFile record.manifest.preservedPath
      let clean ← recoveryClean
      if preserved || !clean then .ret (some record) else replayMoved request rest
    else replayMoved request rest

/-- The sidecars of a registered manifest are as they were registered. -/
def requireSidecars (message : String) : List SidecarMetadata → IngestionClient Unit
  | [] => .ret ()
  | sidecar :: rest => do
    let current ← hashPreservedFile site sidecar.sourcePath
    .ensure (current == sidecar.contentHash) (.state message)
    requireSidecars message rest

/-- A registered manifest whose file is still in the raw zone, in the order of the candidates. -/
def replayLive (request : RegisterRequest) (currentHash : String) :
    List (ArtifactRecord × ManifestMetadata) → IngestionClient (Option ArtifactRecord)
  | [] => .ret none
  | (record, metadata) :: rest =>
    if (metadata.sidecars.map SidecarMetadata.sourcePath) = request.sidecars then do
      let preserved ← isFile record.manifest.preservedPath
      if record.manifest.preservedPath == request.path || !preserved then do
        .ensure (record.manifest.contentHash == currentHash)
          (.state "A registered raw path changed before its lifecycle move completed.")
        requireSidecars site "A registered sidecar changed before its lifecycle move completed." metadata.sidecars
        .ret (some record)
      else replayLive request currentHash rest
    else replayLive request currentHash rest

def replayCandidate (existing : List ArtifactRecord) (request : RegisterRequest) (sourceExists : Bool) :
    IngestionClient (Option ArtifactRecord) :=
  let candidates := (existing.filterMap fun record => record.manifest.notes.bind fun metadata =>
    if metadata.registeredPath = request.path then some (record, metadata) else none).reverse
  if candidates.isEmpty then .ret none
  else if sourceExists then do
    let currentHash ← hashPreservedFile site request.path
    replayLive site request currentHash candidates
  else replayMoved request candidates

inductive Disposition where
  | registered
  | alreadyRegistered
  | duplicateLinked
  | quarantined
deriving DecidableEq

/-- `_resume_or_return_registration` -/
def resumeOrReturn (record : ArtifactRecord) (draws : IngestionDraws) : IngestionClient Disposition :=
  match record.manifest.status, record.manifest.notes with
  | .quarantined, some metadata =>
    match metadata.quarantineReceipt with
    | some authorization => do
      let _ ← moveManifest site "quarantine" record.manifest metadata authorization
      .ret .alreadyRegistered
    | none => do
      let clean ← recoveryClean
      .ensure clean (.state "A quarantine move lacks its authenticated recovery receipt.")
      let authorization ← updateManifest site format record.manifestPath record.manifest "quarantine-authorize" draws.attempts
      let stored ← persistQuarantineReceipt site format record.manifestPath record.manifest metadata authorization
        fun number => draws.attempts (4 + number)
      let _ ← moveManifest site "quarantine" stored.1 metadata authorization
      .ret .alreadyRegistered
  | _, _ => .ret .alreadyRegistered

/-- `scan_artifact` -/
def scanPath (path : String) (declared : Option String) (draws : IngestionDraws) : IngestionClient ScannedPath := do
  let content ← readFile path
  match content with
  | none => .raise .read
  | some content =>
    let scanned := draws.scan path declared content
    .ret ⟨path, hashBytes site content, scanned.1, scanned.2⟩

def scanSidecars (draws : IngestionDraws) : List String → IngestionClient (List ScannedPath)
  | [] => .ret []
  | path :: rest => do
    let first ← scanPath site path none draws
    let others ← scanSidecars draws rest
    .ret (first :: others)

def scanDiagnostics (scanned : List ScannedPath) : List IngestionDiagnostic :=
  ((scanned.flatMap fun file => file.reasons.map fun reason => (⟨reason, file.relativePath⟩ : IngestionDiagnostic)).eraseDups).insertionSort
    fun one two => one.path < two.path ∨ (one.path = two.path ∧ one.reason.value ≤ two.reason.value)

def firstByContentHash (existing : List ArtifactRecord) (contentHash : String) : Option ArtifactRecord :=
  existing.find? fun record => record.manifest.contentHash == contentHash

def statusFor (request : RegisterRequest) (diagnostics : List IngestionDiagnostic) (duplicate : Option ArtifactRecord) :
    Except IngestionError (ArtifactStatus × Option String) :=
  if !diagnostics.isEmpty then .ok (.quarantined, none)
  else match duplicate with
    | none => .ok (.pending, none)
    | some record =>
      match request.duplicatePolicy with
      | .refuse => .error (.duplicate record.manifest.id)
      | .link => .ok (.duplicate, some record.manifest.id)

def newManifest (request : RegisterRequest) (artifactId : String) (ingestedAt : AwareDatetime) (primary : ScannedPath)
    (sidecars : List ScannedPath) (diagnostics : List IngestionDiagnostic) (status : ArtifactStatus × Option String) :
    ArtifactManifest :=
  let metadata : ManifestMetadata :=
    ⟨request.path, sidecars.map fun sidecar => ⟨sidecar.relativePath, sidecar.contentHash⟩, diagnostics, none⟩
  let preserved := if status.1 = .quarantined then destinationsIn "00_inbox/quarantine" artifactId metadata
    else request.path :: sidecars.map ScannedPath.relativePath
  { id := artifactId
    contentHash := primary.contentHash
    originalName := String.ofList (nameOf request.path)
    mediaType := primary.mediaType
    details := request.details
    ingestedAt := ingestedAt
    status := status.1
    preservedPath := preserved.headD request.path
    sidecars := preserved.tail
    duplicateOf := status.2
    notes := some metadata }

def dispositionOf : ArtifactStatus → Disposition
  | .duplicate => .duplicateLinked
  | .quarantined => .quarantined
  | _ => .registered

/-- The part of a registration behind the creation of its manifest. -/
def quarantine (manifest : ArtifactManifest) (receipt : String) (draws : IngestionDraws) : IngestionClient Unit :=
  match manifest.status, manifest.notes with
  | .quarantined, some metadata => do
    let stored ← persistQuarantineReceipt site format (manifestPath manifest.id) manifest metadata receipt
      fun number => draws.attempts (4 + number)
    let _ ← moveManifest site "quarantine" stored.1 metadata stored.2
    .ret ()
  | _, _ => .ret ()

/-- The part of `register` for a request that no manifest answers. -/
def registerNew (existing : List ArtifactRecord) (request : RegisterRequest) (draws : IngestionDraws) :
    IngestionClient Disposition := do
  let primary ← scanPath site request.path request.mediaType draws
  let sidecars ← scanSidecars site draws request.sidecars
  let diagnostics := scanDiagnostics (primary :: sidecars)
  let status ← Client.ofExcept (statusFor request diagnostics (firstByContentHash existing primary.contentHash))
  let ingestedAt := normalizeTime draws.clock
  let artifactId ← Client.ofExcept (match allocateArtifactId site.library existing request.path ingestedAt with
    | some artifactId => .ok artifactId
    | none => .error (.state "The daily artifact ID sequence is exhausted for this filename."))
  let manifest := newManifest request artifactId ingestedAt primary sidecars diagnostics status
  let receipt ← createManifest site format manifest draws.attempts
  quarantine site format manifest receipt draws
  .ret (dispositionOf status.1)

def register (request : RegisterRequest) (draws : IngestionDraws) : IngestionClient Disposition := do
  .ensure request.accepts (.state "request")
  let existing ← records format
  let sourceExists ← isFile request.path
  let replay ← replayCandidate site existing request sourceExists
  match replay with
  | some record => resumeOrReturn site format record draws
  | none => do
    .ensure sourceExists (.notFound "The requested raw artifact was not found.")
    registerNew site format existing request draws

/-! `archive_after`. -/

def requireRegisteredHashes (manifest : ArtifactManifest) (metadata : ManifestMetadata) : IngestionClient Unit := do
  let primary ← hashPreservedFile site metadata.registeredPath
  .ensure (primary == manifest.contentHash) (.state "The raw artifact no longer matches its manifest hash.")
  requireSidecars site "A raw sidecar no longer matches its registered hash." metadata.sidecars

def archived (manifest : ArtifactManifest) (metadata : ManifestMetadata) : ArtifactManifest :=
  let destinations := destinationsIn "01_processed" manifest.id metadata
  { manifest with
    status := .processed
    preservedPath := destinations.headD manifest.preservedPath
    sidecars := destinations.tail }

/-- The manifest that is archived: it is updated first, unless it is processed already. -/
def archiveManifest (record : ArtifactRecord) (metadata : ManifestMetadata) (draws : IngestionDraws) :
    IngestionClient ArtifactManifest :=
  match record.manifest.status with
  | .processed => .ret record.manifest
  | .pending => do
    requireRegisteredHashes site record.manifest metadata
    let _ ← updateManifest site format record.manifestPath (archived record.manifest metadata) "archive-manifest" draws.attempts
    .ret (archived record.manifest metadata)
  | .processing => do
    requireRegisteredHashes site record.manifest metadata
    let _ ← updateManifest site format record.manifestPath (archived record.manifest metadata) "archive-manifest" draws.attempts
    .ret (archived record.manifest metadata)
  | _ => .raise (.state "The artifact is not eligible for archive.")

/-- `archive_after`: whether the files were moved before, and whether a move was recovered. -/
def archiveAfter (artifactId receipt : String) (draws : IngestionDraws) : IngestionClient (Bool × Bool) := do
  let record ← recordById format artifactId
  let authentic ← Client.observe .plain fun world => authenticates world.events receipt (artifactReference record.manifest)
  .ensure authentic .receipt
  match record.manifest.notes with
  | none => .raise (.state "The artifact lacks ingestion lifecycle metadata.")
  | some metadata => do
    let manifest ← archiveManifest site format record metadata draws
    moveManifest site "archive" manifest metadata receipt

/-! `register_batch`. -/

/-- `BatchRegistrationOutcome` -/
inductive BatchOutcome where
  | registered (disposition : Disposition)
  | duplicate (record : ArtifactRecord)
  | failed (error : IngestionError)
  | notAttempted

/-- One request of a batch: a refused duplicate is looked up, and every other error is its outcome. -/
def registerItem (request : RegisterRequest) (draws : IngestionDraws) : IngestionClient BatchOutcome :=
  ((do
    let disposition ← register site format request draws
    .ret (.registered disposition)) : IngestionClient BatchOutcome).handle fun error =>
      match error with
      | .duplicate duplicateOf => ((do
          let record ← recordById format duplicateOf
          .ret (.duplicate record)) : IngestionClient BatchOutcome).handle fun error => .ret (.failed error)
      | error => .ret (.failed error)

def registerBatchRequests : List (RegisterRequest × IngestionDraws) → IngestionClient (List BatchOutcome)
  | [] => .ret []
  | (request, draws) :: rest => do
    let outcome ← registerItem site format request draws
    match outcome with
    | .failed error => .ret (.failed error :: rest.map fun _ => .notAttempted)
    | outcome => do
      let others ← registerBatchRequests rest
      .ret (outcome :: others)

/-- `register_batch`, whose transactions are validated by its own operation. -/
def registerBatch (verdict : Proposal → Files → Files → Verdict) (requests : List (RegisterRequest × IngestionDraws)) :
    IngestionClient (List BatchOutcome) :=
  match requests with
  | [] => .ret []
  | requests => do
    let clean ← recoveryClean
    .ensure clean (.transaction .recoveryPending)
    registerBatchRequests { site with verdict := verdict } format requests

inductive Call where
  | register (request : RegisterRequest) (draws : IngestionDraws)
  | registerBatch (verdict : Proposal → Files → Files → Verdict) (requests : List (RegisterRequest × IngestionDraws))
  | archiveAfter (artifactId receipt : String) (draws : IngestionDraws)

def Call.client : Call → IngestionClient Unit
  | .register request draws => do
    let _ ← Workctx.Ingestion.register site format request draws
    .ret ()
  | .registerBatch verdict requests => do
    let _ ← Workctx.Ingestion.registerBatch site format verdict requests
    .ret ()
  | .archiveAfter artifactId receipt draws => do
    let _ ← Workctx.Ingestion.archiveAfter site format artifactId receipt draws
    .ret ()

def callPool (calls : Nat → Call) (world : IngestionWorld) : Pool Nat IngestionWorld Note IngestionError Unit :=
  ⟨fun i => (calls i).client site format, world⟩

end
/-! A small inbox. -/

def moment : Codec AwareDatetime := (Codec.int.pair Codec.int).map (fun value => (value.instant, value.utcoffset))
  (fun found => ⟨found.1, found.2⟩) fun _ => rfl

def ArtifactStatus.number : ArtifactStatus → Nat
  | .pending => 0
  | .quarantined => 1
  | .processing => 2
  | .processed => 3
  | .failed => 4
  | .duplicate => 5

def ArtifactStatus.ofNumber : Nat → ArtifactStatus
  | 0 => .pending
  | 1 => .quarantined
  | 2 => .processing
  | 3 => .processed
  | 4 => .failed
  | _ => .duplicate

def QuarantineReason.number : QuarantineReason → Nat
  | .executablePayload => 0
  | .oversized => 1
  | .possibleSecret => 2
  | .promptInjection => 3
  | .unsupportedType => 4

def QuarantineReason.ofNumber : Nat → QuarantineReason
  | 0 => .executablePayload
  | 1 => .oversized
  | 2 => .possibleSecret
  | 3 => .promptInjection
  | _ => .unsupportedType

def statusCodec : Codec ArtifactStatus := Codec.nat.map ArtifactStatus.number ArtifactStatus.ofNumber fun status => by cases status <;> rfl

def diagnosticCodec : Codec IngestionDiagnostic :=
  (Codec.nat.pair Codec.string).map (fun value => (value.reason.number, value.path))
    (fun found => ⟨.ofNumber found.1, found.2⟩) fun value => by cases value with | mk reason path => cases reason <;> rfl

def sidecarCodec : Codec SidecarMetadata :=
  (Codec.string.pair Codec.string).map (fun value => (value.sourcePath, value.contentHash)) (fun found => ⟨found.1, found.2⟩)
    fun _ => rfl

def metadataCodec : Codec ManifestMetadata :=
  ((Codec.string.pair sidecarCodec.list).pair (diagnosticCodec.list.pair Codec.string.option)).map
    (fun value => ((value.registeredPath, value.sidecars), value.quarantineDiagnostics, value.quarantineReceipt))
    (fun found => ⟨found.1.1, found.1.2, found.2.1, found.2.2⟩) fun _ => rfl

def detailsCodec : Codec ArtifactDetails :=
  (((Codec.string.pair Codec.string.option).pair (moment.option.pair Codec.bool)).pair
    (Codec.string.option.pair (Codec.string.list.pair Codec.string.option))).map
    (fun value => (((value.sourceType, value.sourceOrigin), value.eventAt, value.eventAtInferred), value.language,
      value.participants, value.classification))
    (fun found => ⟨found.1.1.1, found.1.1.2, found.1.2.1, found.1.2.2, found.2.1, found.2.2.1, found.2.2.2⟩) fun _ => rfl

def manifestCodec : Codec ArtifactManifest :=
  (((Codec.string.pair Codec.string).pair ((Codec.string.pair Codec.string).pair (detailsCodec.pair moment))).pair
    ((statusCodec.pair Codec.string).pair ((Codec.string.list.pair Codec.string.option).pair metadataCodec.option))).map
    (fun value => (((value.id, value.contentHash), (value.originalName, value.mediaType), value.details, value.ingestedAt),
      (value.status, value.preservedPath), (value.sidecars, value.duplicateOf), value.notes))
    (fun found => ⟨found.1.1.1, found.1.1.2, found.1.2.1.1, found.1.2.1.2, found.1.2.2.1, found.1.2.2.2, found.2.1.1, found.2.1.2,
      found.2.2.1.1, found.2.2.1.2, found.2.2.2⟩) fun _ => rfl

def sampleFormat : ManifestFormat where
  read content := (manifestCodec.read content).map Prod.fst
  render := manifestCodec.write
  readBack manifest := by
    have read := manifestCodec.readBack manifest []
    rw [List.append_nil] at read
    rw [read]
    rfl

def sampleSite : Site where
  library := demoLibrary
  contextId := "demo"
  render := fun _ body => encodeUtf8 body.toList
  parse := fun _ => none
  compile := fun payload => encodeUtf8 payload.body.toList
  utcStamp := fun _ => "20260101T000000Z"
  revision := fun events => toString events.length
  resolvesReference := fun _ _ => true
  verdict := fun _ _ _ => .accepted
  localReview := false
  possibleSecret := fun _ => false

def rawPath (name : String) : String := "00_inbox/raw/" ++ name ++ ".txt"

def sampleInbox (entries : List (String × String)) : IngestionWorld :=
  ⟨entries.map fun entry => (rawPath entry.1, encodeUtf8 entry.2.toList), [], none⟩

def contentHashA : String := hashBytes sampleSite (encodeUtf8 "A".toList)

def sampleRequest (path : String) (sidecars : List String) : RegisterRequest :=
  ⟨path, none, ⟨"note", none, none, false, none, [], none⟩, sidecars, .link⟩

/-- A policy that has nothing to say, and a token that tells the calls apart. -/
def sampleDraws (token : String) : IngestionDraws where
  scan := fun _ _ _ => ("text/plain", [])
  clock := ⟨0, 0⟩
  attempts := fun number => (⟨0, 0⟩, token ++ toString number)

end Workctx.Ingestion
