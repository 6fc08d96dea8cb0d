import Workctx.Services.World

/-! `save_draft` as a client of the workspace: every read of a file, the read of the ledger and the
transaction are actions of their own. -/

namespace Workctx.Drafting
open Workctx.Concurrent Workctx.Text Workctx.Json Workctx.Domain Workctx.Staging Workctx.Engine Workctx.Services

/-! What is shared with the other service of the outbox. -/

/-- The errors of drafting and of sending, with their own texts where the call gives one. -/
inductive DraftError where
  | validation (message : String)
  | input (message : String)
  | notFound (message : String)
  | secret
  | context
  | state (message : String)
  | transaction (failure : Failure)
  | sendApprovalRequired
  | sendInput (message : String)
  | sendFingerprintMismatch
  | sendState (message : String)
  | sendSecret
  | sendAuthentication
  | sendConnection
  | sendTimeout
  | sendStatus (statusCode : Nat)
  | sendResponse
  | sendAuditCommit (remoteCommentId remoteCommentUrl : String)
deriving DecidableEq

structure RemoteComment where
  commentId : String
  url : String
deriving DecidableEq

/-- A request handed to the remote: the call that made it, and the comment the call accepts as its receipt. -/
structure Post where
  call : Nat
  target : String
  body : String
  comment : Option RemoteComment
deriving DecidableEq

abbrev OutboxWorld := World (List Post)

/-- The actions of the outbox. Of two of them it is said what they are: the read of the bytes a
saved draft will replace, and the last read of the snapshot that is sent. -/
inductive Note where
  | plain
  | expected (path : String)
  | snapshot (record : DraftRecord)
deriving DecidableEq

abbrev OutboxClient := Client OutboxWorld Note DraftError

def inconsistentState : String := "Canonical draft state is inconsistent."

def fieldsOf {platform : Platform} : Extras platform → Option DraftFields
  | .draft fields => some fields
  | _ => none

section
variable (site : Site)

def documentAt (path : String) (content : Bytes) : Option (CanonicalDocument site.library) :=
  (site.parse content).map fun parsed => ⟨path, parsed.1, parsed.2⟩

/-- The record of a draft file, as `_read_draft` reads it. -/
def recordAt (draftId : String) (content : Bytes) : Option DraftRecord := do
  let document ← documentAt site (draftPath draftId) content
  let record ← (readDraft site.library document).toOption
  if record.id = draftId then some record else none

/-- `_read_draft` of a file that is there. -/
def readContent (draftId : String) : OutboxClient DraftRecord := do
  let content ← Client.observe .plain fun world => world.files.get (draftPath draftId)
  match content.bind (recordAt site draftId) with
  | some record => .ret record
  | none => .raise (.state inconsistentState)

/-- `_read_draft` with `required=False` -/
def readDraftOptional (draftId : String) : OutboxClient (Option DraftRecord) := do
  let present ← Client.observe .plain fun world => (world.files.get (draftPath draftId)).isSome
  if present then do
    let record ← readContent site draftId
    .ret (some record)
  else .ret none

/-- `get_draft`: `_read_draft` with `required=True`. -/
def readDraftRequired (draftId : String) : OutboxClient DraftRecord := do
  let present ← Client.observe .plain fun world => (world.files.get (draftPath draftId)).isSome
  .ensure present (.notFound "The requested draft was not found.")
  readContent site draftId

/-- `_draft_content_hash` of both services; their error is their own. -/
def draftContentHash (note : Note) (error : DraftError) (draftId : String) : OutboxClient String := do
  let content ← Client.observe note fun world => world.files.get (draftPath draftId)
  match content with
  | some content => .ret (hashBytes site content)
  | none => .raise error

def transactionApply (proposal : Proposal) (approved : Bool) : OutboxClient Event := do
  let outcome ← Client.transact .plain fun world => (commit site proposal approved world).mapError .transaction
  Client.ofExcept (outcome.mapError .transaction)

def headHash : OutboxClient String := Client.observe .plain fun world => site.revision world.events

end

/-! The payload. -/

structure DraftPayload where
  draftId : Option String
  title : String
  recipientUri : String
  purpose : String
  format : DraftFormat
  body : String
  taskUri : Option String
  sourceRefs : List String
  authorId : String
  agent : String
  model : String
deriving DecidableEq

def DraftFormat.value : DraftFormat → String
  | .chat => "chat"
  | .email => "email"
  | .statusUpdate => "status_update"
  | .documentation => "documentation"

def DraftPayload.modelValidate (library : Library) (payload : DraftPayload) : Except String DraftPayload := do
  constrain (payload.draftId.all isDraftId) "draft_id"
  constrain (lengthBetween 1 200 payload.title) "title"
  constrain (lengthBetween 1 2000 payload.recipientUri) "recipient_uri"
  constrain (lengthBetween 1 2000 payload.purpose) "purpose"
  constrain (lengthBetween 1 100000 payload.body) "body"
  constrain (payload.taskUri.all (lengthBetween 0 2000)) "task_uri"
  constrain (payload.sourceRefs.length ≤ 100) "source_refs"
  constrain (lengthBetween 1 200 payload.authorId) "author_id"
  constrain (lengthBetween 1 200 payload.agent) "agent"
  constrain (lengthBetween 1 200 payload.model) "model"
  checkEach (printableLine · "draft metadata")
    [payload.title, payload.purpose, payload.authorId, payload.agent, payload.model]
  canonicalTypedUri library payload.recipientUri "person"
  checkSome (fun taskUri => canonicalTypedUri library taskUri "task") payload.taskUri
  let sourceRefs ← validateSourceRefs library.platform payload.sourceRefs
  .ok { payload with sourceRefs := sourceRefs }

def payloadStrings (payload : DraftPayload) : List String :=
  payload.draftId.toList ++ [payload.title, payload.recipientUri, payload.purpose, payload.format.value, payload.body] ++
    payload.taskUri.toList ++ payload.sourceRefs ++ [payload.authorId, payload.agent, payload.model]

/-! The draft that is saved. -/

section
variable (site : Site)

def localUri (value entityType : String) : Except DraftError Unit :=
  match site.library.parseUri value with
  | none => .error (.input ("A canonical " ++ entityType ++ " URI is required."))
  | some parsed =>
    if parsed.contextId ≠ site.contextId then .error .context
    else if parsed.entityType ≠ entityType ∨ site.library.formatUri parsed ≠ value then
      .error (.input ("A canonical " ++ entityType ++ " URI is required."))
    else .ok ()

def referenceTo (relation target : String) : Value :=
  .object [("relation", .string relation), ("target", .string target), ("confidence", .string "high")]

/-- `_frontmatter`, before its validation. -/
def draftFrontmatter (payload : DraftPayload) (draftId : String) (createdAt updatedAt : AwareDatetime) :
    DraftFrontmatter where
  id := draftId
  entityType := "draft"
  title := payload.title
  uri := "workctx://" ++ site.contextId ++ "/draft/" ++ draftId
  aliases := []
  status := some "draft"
  confidence := some "high"
  tags := ["outbox", "unsent"]
  topics := []
  references := referenceTo "mentions" payload.recipientUri :: payload.taskUri.toList.map (referenceTo "related_to")
  createdAt := createdAt
  updatedAt := updatedAt
  extras :=
    { deliveryState := .unsent
      delivery := none
      recipientUri := payload.recipientUri
      purpose := payload.purpose
      draftFormat := payload.format
      taskUri := payload.taskUri
      sourceRefs := payload.sourceRefs }

def generic (frontmatter : DraftFrontmatter) : EntityFrontmatter (Extras site.library.platform) :=
  narrow frontmatter (.draft frontmatter.extras)

/-- What a call draws: the answers of the projection, the clock, and the token of its proposal. -/
structure SaveDraws where
  recipientKnown : Bool
  taskKnown : Bool
  clock : AwareDatetime
  token : String

inductive SaveOperation where
  | created
  | updated
deriving DecidableEq

structure DraftSaveResult where
  operation : SaveOperation
  draft : DraftRecord
  receipt : Event

variable (payload : DraftPayload) (approved : Bool) (draws : SaveDraws)

/-- The proposal of `save_draft`. -/
def saveProposal (draftId base : String) (operation : FileOperation) (condition : TransactionCondition) : Proposal where
  id := "TXP-" ++ site.utcStamp (normalizeTime draws.clock) ++ "-draft-save-" ++ draftId.toLower ++ "-" ++ draws.token
  baseRevision := base
  actor := .agent payload.authorId payload.agent payload.model
  sourceRefs := payload.sourceRefs
  operations := [operation]
  preconditions := [condition]
  postconditions := [.pathExists (draftPath draftId)]
  approvalRequired := site.localReview

/-- The part of `save_draft` behind its operation. -/
def submitSave (draftId : String) (kind : SaveOperation) (operation : FileOperation) (condition : TransactionCondition) :
    OutboxClient DraftSaveResult := do
  let base ← headHash site
  let proposal := saveProposal site payload draws draftId base operation condition
  .ensure (acceptsProposal site proposal) (.validation "proposal")
  let receipt ← transactionApply site proposal approved
  let saved ← readDraftRequired site draftId
  .ret ⟨kind, saved, receipt⟩

def writeDraft (draftId : String) (existing : Option DraftRecord) (content : Bytes) : OutboxClient DraftSaveResult :=
  let path := draftPath draftId
  match existing with
  | none => submitSave site payload approved draws draftId .created (.create path content) (.pathAbsent path)
  | some _ => do
    let expectedHash ← draftContentHash site (.expected path)
      (.state "A canonical draft could not be read safely.") draftId
    submitSave site payload approved draws draftId .updated (.update path content expectedHash)
      (.pathHash path expectedHash)

/-- The part of `save_draft` behind the allocation of its identifier. -/
def saveAs (draftId : String) : OutboxClient DraftSaveResult := do
  let now := normalizeTime draws.clock
  let existing ← readDraftOptional site draftId
  .ensure (existing.all fun record => record.deliveryState == .unsent)
    (.state "A sent draft cannot be revised or returned to unsent state.")
  let createdAt := (existing.map DraftRecord.createdAt).getD now
  let frontmatter ← Client.ofExcept
    ((refineDraft site.library (draftFrontmatter site payload draftId createdAt now)).mapError .validation)
  writeDraft site payload approved draws draftId existing (site.render (generic site frontmatter) payload.body)

/-- `_allocate_draft_id`, for a payload without an identifier. -/
def chooseDraftId : OutboxClient String :=
  match payload.draftId with
  | some draftId => .ret draftId
  | none => do
    let start := "DRAFT-" ++ site.library.utcDay (normalizeTime draws.clock) ++ "-" ++
      slugOf site.library.unicode "draft" payload.title ++ "-"
    let allocated ← Client.observe .plain fun world => allocateId isDraftId "05_outbox/" start world.files
    Client.ofExcept (match allocated with
      | some draftId => .ok draftId
      | none => .error (.state "The daily draft identifier sequence is exhausted."))

/-- `save_draft` of a validated payload. -/
def saveValidated : OutboxClient DraftSaveResult := do
  .ensure (!(payloadStrings payload).any site.possibleSecret) .secret
  Client.ofExcept (localUri site payload.recipientUri "person")
  Client.ofExcept (checkSome (fun taskUri => localUri site taskUri "task") payload.taskUri)
  .ensure draws.recipientKnown (.notFound "The intended recipient was not found.")
  .ensure (payload.taskUri.isNone || draws.taskKnown) (.notFound "The related task was not found.")
  let draftId ← chooseDraftId site payload draws
  saveAs site payload approved draws draftId

def saveDraft : OutboxClient DraftSaveResult := do
  let validated ← Client.ofExcept ((payload.modelValidate site.library).mapError .validation)
  saveValidated site validated approved draws

end
end Workctx.Drafting
