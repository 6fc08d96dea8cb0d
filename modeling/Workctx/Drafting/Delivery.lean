import Workctx.Drafting.Saving

/-! `send` as a client of the workspace and of the remote: the snapshot of the draft, the request, and
the transaction that records the delivery. -/

namespace Workctx.Drafting
open Workctx.Concurrent Workctx.Text Workctx.Json Workctx.Domain Workctx.Staging Workctx.Engine Workctx.Services

/-! The channel. -/

def resolveTarget (target : String) : Except DraftError RemoteName :=
  match matchGithubTarget target with
  | none => .error (.sendInput "The GitHub target must use owner/repo#number grammar.")
  | some found =>
    if found.repo = "." ∨ found.repo = ".." then
      .error (.sendInput "The GitHub target must use owner/repo#number grammar.")
    else .ok found

/-- `_adapter` -/
def requireChannel (channel : String) : Except DraftError Unit :=
  if channel = "github" then .ok () else .error (.sendInput "The only supported outbox channel is github.")

/-- What reading the body of a response gives: its JSON value, or why there is none. -/
inductive ResponseBody where
  | parsed (value : Value)
  | unusable
  | timeout
  | interrupted

inductive Answer where
  | timeout
  | failed
  | response (statusCode : Nat) (body : ResponseBody)

/-- `payload.get` of a JSON object; the last member of a name counts. -/
def memberOf (members : List (String × Value)) (name : String) : Option Value := members.reverse.lookup name

section
variable (library : Library)

def remoteMatchesTarget (target : RemoteName) (commentId url : String) : Bool :=
  match matchGithubCommentUrl url with
  | some (remote, comment) => sameRemote library target remote && comment == commentId
  | none => false

def commentOf (target : RemoteName) (payload : Value) : Except DraftError RemoteComment :=
  match payload with
  | .object members =>
    match memberOf members "id", memberOf members "html_url" with
    | some (.int commentId), some (.string url) =>
      if commentId < 1 then .error .sendResponse
      else if remoteMatchesTarget library target (toString commentId) url then .ok ⟨toString commentId, url⟩
      else .error .sendResponse
    | _, _ => .error .sendResponse
  | _ => .error .sendResponse

/-- `_run_github_delivery` behind the request, with `_github_response_outcome` and `_raise_delivery_failure`. -/
def deliveryOutcome (target : RemoteName) : Answer → Except DraftError RemoteComment
  | .timeout => .error .sendTimeout
  | .failed => .error .sendConnection
  | .response statusCode body =>
    if statusCode ≠ 201 then .error (.sendStatus (if statusCode = 0 then 500 else statusCode))
    else match body with
      | .parsed value => commentOf library target value
      | .unusable => .error .sendResponse
      | .timeout => .error .sendTimeout
      | .interrupted => .error .sendConnection

end

/-! The service. -/

/-- What a call draws: whether a token is found, how the remote answers, the clock and the token
of its proposal. -/
structure SendDraws where
  authenticated : Bool
  answer : Answer
  clock : AwareDatetime
  token : String

structure PreparedSend (site : Site) where
  draft : DraftRecord
  frontmatter : EntityFrontmatter (Extras site.library.platform)
  contentHash : String
  target : String
  remote : RemoteName
  fingerprint : String

structure SendResult where
  draft : DraftRecord
  delivery : DraftDelivery
  receipt : Event

section
variable (site : Site)

def sendFingerprint (draftHash channel target : String) : String :=
  hashBytes site (encodeUtf8 (draftHash ++ channel ++ target).toList)

def draftIdentifier (value : String) : Except DraftError String := do
  let draftId ←
    if "workctx://".toList.isPrefixOf value.toList then do
      localUri site value "draft"
      .ok (((site.library.parseUri value).map WorkctxUri.entityId).getD "")
    else .ok value
  if isDraftId draftId then .ok draftId else .error (.input "A valid DRAFT identifier is required.")

def unsafeRead : DraftError := .sendState "The canonical draft could not be read safely."

/-- `self._store.read_entity(draft.path)` -/
def readEntity (draftId : String) : OutboxClient (CanonicalDocument site.library) := do
  let content ← Client.observe .plain fun world => world.files.get (draftPath draftId)
  match content.bind (documentAt site (draftPath draftId)) with
  | some document => .ret document
  | none => .raise unsafeRead

def notRegular : DraftError := .sendState "The canonical draft path is not a regular file."

/-- The attempts of `_stable_draft`. -/
def stableDraft (draftId : String) :
    Nat → OutboxClient (DraftRecord × EntityFrontmatter (Extras site.library.platform) × String)
  | 0 => .raise (.sendState "The canonical draft changed repeatedly during preview.")
  | attempts + 1 => do
    let hashBefore ← draftContentHash site .plain notRegular draftId
    let draft ← readDraftRequired site draftId
    let document ← readEntity site draftId
    let hashAfter ← draftContentHash site (.snapshot draft) notRegular draftId
    if hashBefore = hashAfter ∧ document.body = draft.body then .ret (draft, document.frontmatter, hashAfter)
    else stableDraft draftId attempts

variable (call : Nat) (draftId channel target : String)

/-- The preview, as far as `send` uses it. -/
def previewOf (remote : RemoteName) (draft : DraftRecord) (frontmatter : EntityFrontmatter (Extras site.library.platform))
    (contentHash : String) : Except DraftError (PreparedSend site) :=
  if draft.deliveryState ≠ .unsent ∨ draft.delivery ≠ none then
    .error (.sendState "A sent draft cannot be previewed or sent again.")
  else if lengthBetween 1 100000 draft.body && target.length ≤ 200 then
    .ok ⟨draft, frontmatter, contentHash, target, remote, sendFingerprint site contentHash channel target⟩
  else .error (.validation "body")

/-- `_prepare` -/
def prepareSend : OutboxClient (PreparedSend site) := do
  Client.ofExcept (requireChannel channel)
  let remote ← Client.ofExcept (resolveTarget target)
  let selected ← Client.ofExcept (draftIdentifier site draftId)
  let found ← readDraftRequired site selected
  let stable ← stableDraft site found.id 2
  Client.ofExcept (previewOf site channel target remote stable.1 stable.2.1 stable.2.2)

variable (draws : SendDraws) (prepared : PreparedSend site)

/-- `GitHubSendChannel.deliver`: one request, and no other attempt. -/
def deliver : OutboxClient RemoteComment := do
  .ensure draws.authenticated .sendAuthentication
  let outcome := deliveryOutcome site.library prepared.remote draws.answer
  Client.act .plain (fun world =>
    { world with remote := world.remote ++ [⟨call, prepared.target, prepared.draft.body, outcome.toOption⟩] })
    fun _ => Client.ofExcept outcome

def sentTags (tags : List String) : List String :=
  let kept := tags.filter (· != "unsent")
  if kept.contains "sent" then kept else kept ++ ["sent"]

/-- The front matter of `_delivery_proposal`. -/
def deliveredFrontmatter (delivery : DraftDelivery) : Except DraftError (EntityFrontmatter (Extras site.library.platform)) :=
  match fieldsOf prepared.frontmatter.extras with
  | none => .error (.validation "delivery_state")
  | some fields =>
    match refineDraft site.library
        { narrow prepared.frontmatter { fields with deliveryState := .sent, delivery := some delivery } with
          tags := sentTags prepared.frontmatter.tags, updatedAt := delivery.sentAt } with
    | .ok refined => .ok (generic site refined)
    | .error message => .error (.validation message)

def sendActor : Actor := .system "workctx-outbox-send"

def deliveryProposal (delivery : DraftDelivery) (content : Bytes) (base : String) : Proposal where
  id := "TXP-" ++ site.utcStamp delivery.sentAt ++ "-draft-send-" ++ prepared.draft.id.toLower ++ "-" ++ draws.token
  baseRevision := base
  actor := sendActor
  sourceRefs := (prepared.draft.uri :: prepared.draft.sourceRefs).eraseDups
  operations := [.update (draftPath prepared.draft.id) content prepared.contentHash]
  preconditions := [.pathHash (draftPath prepared.draft.id) prepared.contentHash]
  postconditions := [.pathHash (draftPath prepared.draft.id) (hashBytes site content)]
  approvalRequired := true

/-- The transaction of `_record_delivery`, and the read that confirms it. -/
def submitDelivery (delivery : DraftDelivery) (content : Bytes) : OutboxClient SendResult := do
  let base ← headHash site
  let proposal := deliveryProposal site draws prepared delivery content base
  .ensure (acceptsProposal site proposal) (.validation "proposal")
  let receipt ← transactionApply site proposal true
  let draft ← readDraftRequired site prepared.draft.id
  .ensure (draft.delivery == some delivery && draft.deliveryState == .sent) (.state inconsistentState)
  .ret ⟨draft, delivery, receipt⟩

/-- The body of `_record_delivery`. -/
def tryRecord (comment : RemoteComment) : OutboxClient SendResult := do
  let delivery : DraftDelivery := ⟨prepared.target, comment.commentId, comment.url, normalizeTime draws.clock⟩
  Client.ofExcept ((DraftDelivery.modelValidate site.library delivery).mapError .validation)
  let frontmatter ← Client.ofExcept (deliveredFrontmatter site prepared delivery)
  submitDelivery site draws prepared delivery (site.render frontmatter prepared.draft.body)

/-- `_record_delivery`: every exception behind the request asks for reconciliation. -/
def recordDelivery (comment : RemoteComment) : OutboxClient SendResult :=
  (tryRecord site draws prepared comment).handle fun _ => .raise (.sendAuditCommit comment.commentId comment.url)

/-- `send` behind its preparation. -/
def sendPrepared (fingerprint : String) : OutboxClient SendResult := do
  .ensure (fingerprint == prepared.fingerprint) .sendFingerprintMismatch
  .ensure (!site.possibleSecret prepared.draft.body) .sendSecret
  let comment ← deliver site call draws prepared
  recordDelivery site draws prepared comment

def send (approved : Bool) (fingerprint : String) : OutboxClient SendResult := do
  .ensure approved .sendApprovalRequired
  let prepared ← prepareSend site draftId channel target
  sendPrepared site call draws prepared fingerprint

end
end Workctx.Drafting
