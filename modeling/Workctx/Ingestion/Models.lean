import Workctx.Services.World

/-! Artifact manifests with their lifecycle metadata, the requests that make them, and the paths
and identifiers they are given. -/

namespace Workctx.Ingestion
open Workctx.Text Workctx.Domain Workctx.Services

inductive ArtifactStatus where
  | pending
  | quarantined
  | processing
  | processed
  | failed
  | duplicate
deriving DecidableEq

inductive DuplicatePolicy where
  | refuse
  | link
deriving DecidableEq

inductive QuarantineReason where
  | executablePayload
  | oversized
  | possibleSecret
  | promptInjection
  | unsupportedType
deriving DecidableEq

def QuarantineReason.value : QuarantineReason → String
  | .executablePayload => "executable_payload"
  | .oversized => "oversized"
  | .possibleSecret => "possible_secret"
  | .promptInjection => "prompt_injection"
  | .unsupportedType => "unsupported_type"

structure IngestionDiagnostic where
  reason : QuarantineReason
  path : String
deriving DecidableEq

structure SidecarMetadata where
  sourcePath : String
  contentHash : String
deriving DecidableEq

/-- `_ManifestMetadata`; a receipt is the identifier of its proposal. -/
structure ManifestMetadata where
  registeredPath : String
  sidecars : List SidecarMetadata
  quarantineDiagnostics : List IngestionDiagnostic
  quarantineReceipt : Option String
deriving DecidableEq

/-- What a request says of its artifact, as the manifest keeps it. -/
structure ArtifactDetails where
  sourceType : String
  sourceOrigin : Option String
  eventAt : Option AwareDatetime
  eventAtInferred : Bool
  language : Option String
  participants : List String
  classification : Option String
deriving DecidableEq

/-- `ArtifactManifest`, with the metadata in its notes. -/
structure ArtifactManifest where
  id : String
  contentHash : String
  originalName : String
  mediaType : String
  details : ArtifactDetails
  ingestedAt : AwareDatetime
  status : ArtifactStatus
  preservedPath : String
  sidecars : List String
  duplicateOf : Option String
  notes : Option ManifestMetadata
deriving DecidableEq

structure ArtifactRecord where
  manifestPath : String
  manifest : ArtifactManifest
deriving DecidableEq

structure RegisterRequest where
  path : String
  mediaType : Option String
  details : ArtifactDetails
  sidecars : List String
  duplicatePolicy : DuplicatePolicy

/-- A path of the raw zone: at least one part below it, and none of them empty or a traversal. -/
def isRawPath (value : String) : Bool :=
  match value.toList.splitOn '/' with
  | inbox :: raw :: rest =>
    inbox == "00_inbox".toList && raw == "raw".toList && !rest.isEmpty &&
      rest.all fun part => !part.isEmpty && part != ['.'] && part != ['.', '.']
  | _ => false

/-- `RegisterRequest.model_validate`, of the members that name files. -/
def RegisterRequest.accepts (request : RegisterRequest) : Bool :=
  isRawPath request.path && request.sidecars.all isRawPath && decide request.sidecars.Nodup &&
    !request.sidecars.contains request.path && decide request.details.participants.Nodup &&
    (!request.details.eventAtInferred || request.details.eventAt.isSome)

/-- The registered paths of an artifact and of its sidecars. -/
def ManifestMetadata.paths (metadata : ManifestMetadata) : List String :=
  metadata.registeredPath :: metadata.sidecars.map SidecarMetadata.sourcePath

/-- The files of a manifest in the raw zone with their hashes: the artifact, and its sidecars. -/
def ArtifactManifest.sources (manifest : ArtifactManifest) : List (String × String) :=
  match manifest.notes with
  | none => []
  | some metadata =>
    (metadata.registeredPath, manifest.contentHash) :: metadata.sidecars.map fun sidecar => (sidecar.sourcePath, sidecar.contentHash)

def ArtifactManifest.destinations (manifest : ArtifactManifest) : List String := manifest.preservedPath :: manifest.sidecars

/-! Paths and identifiers. -/

/-- `PurePosixPath(path).name` -/
def nameOf (path : String) : List Char := (path.toList.splitOn '/').getLastD []

def splitSuffix (name : List Char) : List Char × List Char :=
  let reversed := name.reverse.dropWhile (· != '.')
  let suffix := name.drop (reversed.length - 1)
  if reversed.length ≤ 1 || suffix.length ≤ 1 then (name, []) else (name.take (reversed.length - 1), suffix)

/-- `_slug` -/
def artifactSlug (unicode : Topics.UnicodeData) (value : List Char) : String :=
  let ascii := ((unicode.nfkd (String.ofList value)).toList.filter fun c => c.toNat < 128).map lowerAscii
  let words := (ascii.splitOnP fun c => !isLowerAlnum c).filter fun word => !word.isEmpty
  let short := (((['-'].intercalate words).take 48).reverse.dropWhile (· == '-')).reverse
  if short.isEmpty then "artifact" else String.ofList short

def sequenceOf (start identifier : String) : Option Nat :=
  let tail := identifier.toList.drop start.length
  if start.toList.isPrefixOf identifier.toList && tail.take 1 == ['-'] && isDigits 2 (tail.drop 1) then
    some ((tail.drop 1).foldl (fun number digit => 10 * number + (digit.toNat - 48)) 0)
  else none

def allocateArtifactId (library : Library) (records : List ArtifactRecord) (path : String) (ingestedAt : AwareDatetime) :
    Option String :=
  let start := "ART-" ++ library.utcDay ingestedAt ++ "-" ++ artifactSlug library.unicode (splitSuffix (nameOf path)).1
  let used := records.filterMap fun record => sequenceOf start record.manifest.id
  (((List.range 99).map (· + 1)).find? fun sequence => !used.contains sequence).map fun sequence =>
    start ++ "-" ++ twoDigits sequence

def manifestDirectory : String := "00_inbox/manifests/"

def manifestPath (artifactId : String) : String := manifestDirectory ++ artifactId ++ ".json"

def inManifests (path : String) : Bool := manifestDirectory.toList.isPrefixOf path.toList

def isManifestFile (path : String) : Bool :=
  inManifests path &&
    let name := path.toList.drop manifestDirectory.length
    !name.contains '/' && ([".json", ".yaml", ".yml"].any fun suffix => (splitSuffix name).2.map lowerAscii == suffix.toList)

/-- The lower case of a sign, where it is ASCII: the Kelvin sign is the one other sign that has such a one. -/
def lowerToAscii (c : Char) : Char := if c = '\u212A' then 'k' else lowerAscii c

/-- The `safe_suffix` of a path: none where it is not a dot and at most 16 letters and digits. -/
def safeSuffix (sourcePath : String) : String :=
  let suffix := (splitSuffix (nameOf sourcePath)).2.map lowerToAscii
  if suffix.length ≤ 17 && 2 ≤ suffix.length && (suffix.drop 1).all isLowerAlnum then String.ofList suffix else ""

def sidecarMarker (sidecarIndex : Option Nat) : String := (sidecarIndex.map fun index => "-sidecar-" ++ twoDigits index).getD ""

def destinationPath (zone artifactId sourcePath : String) (sidecarIndex : Option Nat) : String :=
  zone ++ "/" ++ artifactId ++ sidecarMarker sidecarIndex ++ safeSuffix sourcePath

def destinationsIn (zone artifactId : String) (metadata : ManifestMetadata) : List String :=
  destinationPath zone artifactId metadata.registeredPath none ::
    metadata.sidecars.zipIdx.map fun sidecar => destinationPath zone artifactId sidecar.1.sourcePath (some (sidecar.2 + 1))

/-! Moves. -/

structure MoveSpec where
  source : String
  destination : String
  contentHash : String
deriving DecidableEq

/-- `_quarantine_move_specs` and `_archive_move_specs` -/
def moveSpecs (manifest : ArtifactManifest) (metadata : ManifestMetadata) : Option (List MoveSpec) :=
  if manifest.sidecars.length = metadata.sidecars.length then
    some (⟨metadata.registeredPath, manifest.preservedPath, manifest.contentHash⟩ ::
      (metadata.sidecars.zip manifest.sidecars).map fun pair => ⟨pair.1.sourcePath, pair.2, pair.1.contentHash⟩)
  else none

/-- The staged move of a lifecycle operation that is not finalized. -/
structure MoveIntent where
  transactionId : String
  targets : List MoveSpec
deriving DecidableEq

def moveTransactionId (action artifactId : String) : String := "WP310-" ++ action ++ "-" ++ artifactId

end Workctx.Ingestion
