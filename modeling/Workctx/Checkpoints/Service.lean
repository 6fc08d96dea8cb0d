import Workctx.Projection.Records
import Workctx.References.RoundTrip
import Workctx.Text.Lines
import Workctx.Topics.Registry

/-! Checkpoints of a workspace: what is saved of its items, and what is found of them later. -/

namespace Workctx.Checkpoints
open Workctx.References Workctx.Retrieval Workctx.Search Workctx.Projection Workctx.Topics
open Workctx.Text (Bytes)
open Workctx.Domain (isClaimId)

/-! The workspace -/

/-- The columns of a record that a checkpoint reads; its revision is when an entity or a task was updated, or when a claim or an observation
was observed. -/
structure Columns where
  sourcePath : String
  revision : Option Int
  supersedes : Option Text
  supersededBy : Option Text

abbrev Record := DocumentRecord Columns

def columnsOf : Record → Columns
  | .entity record => record.rest
  | .task record => record.rest
  | .claim record => record.rest
  | .observation record => record.rest

/-- A document of `iter_topic_documents` -/
structure TopicDocument where
  uri : Text
  relativePath : String
  createdAt : Int
  topics : List String

structure Library where
  tables : Tables
  lawful : tables.KeepsLower
  unicode : UnicodeData
  contentHash : Bytes → String
  /-- The revision that the readers find in a document for the record of a URI -/
  revisionOf : Bytes → Text → Option Int

def isClaim (id : Text) : Bool := fullmatch (fun chars => isClaimId (String.ofList chars)) id

def claimType : Text := literal "claim".toList

structure Workspace (library : Library) where
  projection : SQLiteProjection library.tables Columns
  contents : String → Option Bytes
  registry : TopicRegistry library.unicode
  topicDocuments : List TopicDocument
  typed : ∀ entity ∈ projection.entities, checkEntityType entity.entityUri.entityType = .ok ()
  claimIds : ∀ claim ∈ projection.claims, isClaim claim.id = true
  related : ∀ claim ∈ projection.claims, ∀ id, claim.rest.supersededBy = some id → isClaim id = true
  subjects : ∀ claim ∈ projection.claims, ∃ uri : WorkctxUri, uri.contextId = projection.contextId ∧ uri.str = .ok claim.subject
  readable : ∀ uri record, projection.documentOf uri = .ok (some record) → (contents (columnsOf record).sourcePath).isSome = true
  revisions : ∀ uri record text content, projection.documentOf uri = .ok (some record) → uri.str = .ok text →
    contents (columnsOf record).sourcePath = some content → (columnsOf record).revision = library.revisionOf content text

/-! Checkpoints -/

structure CheckpointItem where
  uri : Text
  sourcePath : String
  contentHash : String
  revision : Option Int

structure Checkpoint where
  createdAt : Int
  topic : Option String
  items : List CheckpointItem

inductive CheckpointStatus where
  | green
  | yellow
  | red
deriving DecidableEq

inductive CheckpointReason where
  | unchanged
  | changed
  | deleted
  | moved
  | superseded
deriving DecidableEq

inductive DocumentChange where
  | content
  | revision
deriving DecidableEq

structure CheckpointLocation where
  uri : Text
  sourcePath : String
  revision : Option Int
  contentHash : String

structure CheckpointItemResult where
  uri : Text
  status : CheckpointStatus
  reason : CheckpointReason
  savedPath : String
  currentPath : Option String
  savedRevision : Option Int
  currentRevision : Option Int
  savedContentHash : String
  currentContentHash : Option String
  changes : List DocumentChange
  successors : List CheckpointLocation

structure CheckpointNewItem where
  uri : Text
  sourcePath : String
  createdAt : Int

structure CheckpointCheckResult where
  items : List CheckpointItemResult
  newItems : List CheckpointNewItem

inductive CheckpointError where
  | retrieval (error : RetrievalError)
  | validation (message : String)
  | topicNotFound (message : String)

def ofRead {α : Type} (outcome : Except RetrievalError α) : Except CheckpointError α := outcome.mapError .retrieval

/-- `replace(microsecond=0)` of an instant in microseconds -/
def truncated (instant : Int) : Int := instant - instant % 1000000

section
variable {library : Library} (workspace : Workspace library)

def Workspace.contextId : Text := workspace.projection.contextId

/-- `_content_hash`; its cache keeps the hash of a path during one check. -/
def contentHash (path : String) : Except CheckpointError String :=
  match workspace.contents path with
  | none => .error (.validation "A checkpoint item source could not be read safely.")
  | some content => .ok (library.contentHash content)

/-! Saving -/

/-- `CheckpointItem` of a reference -/
def saveItem (reference : Text) : Except CheckpointError CheckpointItem :=
  match WorkctxUri.parse library.tables reference with
  | .error _ => .error (.validation "Checkpoint references must be canonical workctx:// URIs in this context.")
  | .ok uri =>
    if uri.contextId ≠ workspace.contextId then
      .error (.validation "Checkpoint references must be canonical workctx:// URIs in this context.")
    else do
      let found ← ofRead (workspace.projection.getDocumentByUri (.uri uri))
      match found with
      | none => .error (.validation "A checkpoint reference does not resolve to a canonical item.")
      | some record => do
        let text ← ofRead (ofValue uri.str)
        let hash ← contentHash workspace (columnsOf record).sourcePath
        .ok ⟨text, (columnsOf record).sourcePath, hash, (columnsOf record).revision⟩

/-- `resolve_active_topic` -/
def selectTopic (topic : Option String) : Except CheckpointError (Option String) :=
  match topic with
  | none => .ok none
  | some value =>
    match (resolve library.unicode workspace.registry.topics value).filter fun resolution => resolution.topic.status == .active with
    | none => .error (.topicNotFound "Topic did not resolve to an active slug or alias; run `workctx topic list`.")
    | some resolution => .ok (some resolution.topic.slug)

/-- The checkpoint that `save` makes at an instant of its clock; what else it checks only refuses to save. -/
def save (instant : Int) (references : List Text) (topic : Option String) : Except CheckpointError Checkpoint := do
  let selected ← selectTopic workspace topic
  let canonical := sortedBy codes references.dedup
  if canonical.isEmpty then .error (.validation "Checkpoint save requires at least one --ref or a --from-pack file.")
  else do
    let items ← canonical.mapM (saveItem workspace)
    if (items.map CheckpointItem.uri).Nodup then .ok ⟨truncated instant, selected, items⟩
    else .error (.validation "Checkpoint metadata is invalid.")

/-! Checking -/

/-- `str(WorkctxUri(self._context_id, "claim", id))` -/
def claimText (id : Text) : Except CheckpointError Text := ofRead do
  let uri ← ofValue (WorkctxUri.make workspace.contextId claimType id)
  ofValue uri.str

def claimSuccessors (current : Option Record) : Except CheckpointError (List Text) :=
  match current with
  | some (.claim record) => do
    let named ← record.rest.supersededBy.toList.mapM (claimText workspace)
    let candidates ← ofRead (workspace.projection.claimsForSubject (.text record.subject) none)
    let naming ← (candidates.filter fun candidate => decide (candidate.rest.supersedes = some record.id)).mapM fun candidate =>
      claimText workspace candidate.id
    .ok (named ++ naming)
  | _ => .ok []

def locate (uri : Text) : Except CheckpointError (Option CheckpointLocation) := do
  let found ← ofRead (workspace.projection.getDocumentByUri (.text uri))
  match found with
  | none => .ok none
  | some record => do
    let hash ← contentHash workspace (columnsOf record).sourcePath
    .ok (some ⟨uri, (columnsOf record).sourcePath, (columnsOf record).revision, hash⟩)

def successors (uri : Text) (current : Option Record) : Except CheckpointError (List CheckpointLocation) := do
  let claims ← claimSuccessors workspace current
  let edges ← ofRead (workspace.projection.inboundEdges (.text uri) (some [.supersedes]))
  let located ← (sortedBy codes (claims ++ edges.map EdgeRecord.source).dedup).mapM (locate workspace)
  .ok (located.filterMap id)

def documentChanges (item : CheckpointItem) (currentHash : String) (revision : Option Int) : List DocumentChange :=
  (if currentHash = item.contentHash then [] else [.content]) ++ if revision = item.revision then [] else [.revision]

def itemResult (item : CheckpointItem) (status : CheckpointStatus) (reason : CheckpointReason) (current : Option Record)
    (currentHash : Option String) (changes : List DocumentChange) (successors : List CheckpointLocation) : CheckpointItemResult where
  uri := item.uri
  status
  reason
  savedPath := item.sourcePath
  currentPath := current.map fun record => (columnsOf record).sourcePath
  savedRevision := item.revision
  currentRevision := current.bind fun record => (columnsOf record).revision
  savedContentHash := item.contentHash
  currentContentHash := currentHash
  changes
  successors

def checkItem (item : CheckpointItem) : Except CheckpointError CheckpointItemResult := do
  let current ← ofRead (workspace.projection.getDocumentByUri (.text item.uri))
  let found ← successors workspace item.uri current
  let hash ← (current.map fun record => contentHash workspace (columnsOf record).sourcePath).elim (.ok none) fun hash => hash.map some
  if found ≠ [] then .ok (itemResult item .red .superseded current hash [] found)
  else
    match current, hash with
    | some record, some currentHash =>
      if (columnsOf record).sourcePath ≠ item.sourcePath then
        .ok (itemResult item .red .moved current hash []
          [⟨item.uri, (columnsOf record).sourcePath, (columnsOf record).revision, currentHash⟩])
      else if documentChanges item currentHash (columnsOf record).revision ≠ [] then
        .ok (itemResult item .yellow .changed current hash (documentChanges item currentHash (columnsOf record).revision) [])
      else .ok (itemResult item .green .unchanged current hash [] [])
    | _, _ => .ok (itemResult item .red .deleted none none [] [])

def resolvedSlug (value : String) : Option String := (resolve library.unicode workspace.registry.topics value).map fun resolution => resolution.topic.slug

def TopicDocument.newItem (document : TopicDocument) : CheckpointNewItem := ⟨document.uri, document.relativePath, document.createdAt⟩

def isNew (checkpoint : Checkpoint) (slug : String) (document : TopicDocument) : Bool :=
  decide (checkpoint.createdAt < document.createdAt) && !((checkpoint.items.map CheckpointItem.uri).contains document.uri) &&
    (document.topics.filterMap (resolvedSlug workspace)).contains slug

def newTopicItems (checkpoint : Checkpoint) : List CheckpointNewItem :=
  match checkpoint.topic.bind (resolvedSlug workspace) with
  | none => []
  | some slug =>
    sortedBy (fun item : CheckpointNewItem => (toLex (item.createdAt, codes item.uri) : Int ×ₗ List Nat))
      ((workspace.topicDocuments.filter (isNew workspace checkpoint slug)).map TopicDocument.newItem)

def check (checkpoint : Checkpoint) : Except CheckpointError CheckpointCheckResult := do
  let items ← (sortedBy (fun item : CheckpointItem => codes item.uri) checkpoint.items).mapM (checkItem workspace)
  .ok ⟨items, newTopicItems workspace checkpoint⟩

end

end Workctx.Checkpoints
