import Workctx.Domain.Entities

/-! The draft: its delivery, its front matter and the record that is read from it. -/

namespace Workctx.Drafting
open Workctx.Domain Workctx.Topics

inductive DeliveryState where
  | unsent
  | sent
deriving DecidableEq

inductive DraftFormat where
  | chat
  | email
  | statusUpdate
  | documentation
deriving DecidableEq

/-- The one successful external delivery; its channel is always `github`. -/
structure DraftDelivery where
  target : String
  remoteCommentId : String
  remoteCommentUrl : String
  sentAt : AwareDatetime
deriving DecidableEq

/-! The patterns of the channel. -/

def isAsciiAlnum (c : Char) : Bool := ('A' ≤ c && c ≤ 'Z') || isLowerAlnum c

def isPositiveNumber (text : List Char) : Bool :=
  match text with
  | [] => false
  | first :: rest => '1' ≤ first && first ≤ '9' && rest.all isAsciiDigit

/-- `[A-Za-z0-9](?:[A-Za-z0-9-]{0,37}[A-Za-z0-9])?` -/
def isOwner (text : List Char) : Bool :=
  1 ≤ text.length && text.length ≤ 39 && (text.all fun c => isAsciiAlnum c || c == '-') && text.head? != some '-' &&
    text.getLast? != some '-'

def isRepoChar (c : Char) : Bool := isAsciiAlnum c || c == '.' || c == '_' || c == '-'

structure RemoteName where
  owner : String
  repo : String
  number : String
deriving DecidableEq

/-- The groups of `GITHUB_TARGET_PATTERN`. -/
def matchGithubTarget (text : String) : Option RemoteName :=
  match text.toList.splitOn '/' with
  | [owner, rest] =>
    match rest.splitOn '#' with
    | [repo, number] =>
      if isOwner owner && 1 ≤ repo.length && repo.length ≤ 100 && repo.all isRepoChar && isPositiveNumber number then
        some ⟨String.ofList owner, String.ofList repo, String.ofList number⟩
      else none
    | _ => none
  | _ => none

/-- The groups of `GITHUB_COMMENT_URL_PATTERN`; the last one is the comment. -/
def matchGithubCommentUrl (text : String) : Option (RemoteName × String) :=
  match text.toList.splitOn '#' with
  | [page, comment] =>
    match page.splitOn '/' with
    | [scheme, empty, host, owner, repo, kind, number] =>
      if scheme == "https:".toList && empty == [] && host == "github.com".toList && owner != [] &&
          (owner.all fun c => isAsciiAlnum c || c == '-') && repo != [] && repo.all isRepoChar &&
          (kind == "issues".toList || kind == "pull".toList) && isPositiveNumber number &&
          "issuecomment-".toList.isPrefixOf comment && isPositiveNumber (comment.drop 13) then
        some (⟨String.ofList owner, String.ofList repo, String.ofList number⟩, String.ofList (comment.drop 13))
      else none
    | _ => none
  | _ => none

section
variable (library : Library)

def sameRemote (target remote : RemoteName) : Bool :=
  library.unicode.casefold target.owner == library.unicode.casefold remote.owner &&
    library.unicode.casefold target.repo == library.unicode.casefold remote.repo && target.number == remote.number

def requireSameRemote (delivery : DraftDelivery) : Except String Unit :=
  match matchGithubTarget delivery.target, matchGithubCommentUrl delivery.remoteCommentUrl with
  | some target, some (remote, comment) => do
    check (target.repo != "." && target.repo != "..") "GitHub delivery provenance has an invalid repository"
    check (sameRemote library target remote && delivery.remoteCommentId == comment)
      "GitHub delivery provenance does not match its target"
  | _, _ => .error "GitHub delivery provenance is invalid"

def validateRemoteIdentity (delivery : DraftDelivery) : Except String Unit := do
  check (delivery.sentAt.utcoffset == 0) "delivery timestamps must use UTC"
  requireSameRemote library delivery

def DraftDelivery.modelValidate (delivery : DraftDelivery) : Except String Unit := do
  constrain ((matchGithubTarget delivery.target).isSome && delivery.target.length ≤ 200) "target"
  constrain (isPositiveNumber delivery.remoteCommentId.toList && delivery.remoteCommentId.length ≤ 40) "remote_comment_id"
  constrain ((matchGithubCommentUrl delivery.remoteCommentUrl).isSome && delivery.remoteCommentUrl.length ≤ 500)
    "remote_comment_url"
  validateRemoteIdentity library delivery

/-- The members a draft adds to the shared front matter. -/
structure DraftFields where
  deliveryState : DeliveryState
  delivery : Option DraftDelivery
  recipientUri : String
  purpose : String
  draftFormat : DraftFormat
  taskUri : Option String
  sourceRefs : List String
deriving DecidableEq

abbrev DraftFrontmatter := EntityFrontmatter DraftFields

/-- `validate_delivery`, and the same rule of the record. -/
def validateDelivery (state : DeliveryState) (delivery : Option DraftDelivery) (updatedAt : AwareDatetime) :
    Except String Unit :=
  match state, delivery with
  | .unsent, some _ => .error "an unsent draft cannot claim delivery provenance"
  | .unsent, none => .ok ()
  | .sent, none => .error "a sent draft requires delivery provenance"
  | .sent, some delivery =>
    check (updatedAt.instant == delivery.sentAt.instant) "a sent draft update time must match its delivery time"

/-- `_DraftFrontmatter.model_validate` -/
def refineDraft (frontmatter : DraftFrontmatter) : Except String DraftFrontmatter := do
  frontmatter.modelValidate library
  constrain (frontmatter.entityType == "draft") "entity_type"
  constrain (frontmatter.status == some "draft") "status"
  checkSome (DraftDelivery.modelValidate library) frontmatter.extras.delivery
  canonicalTypedUri library frontmatter.extras.recipientUri "person"
  checkSome (fun taskUri => canonicalTypedUri library taskUri "task") frontmatter.extras.taskUri
  let sourceRefs ← validateSourceRefs library.platform frontmatter.extras.sourceRefs
  validateDelivery frontmatter.extras.deliveryState frontmatter.extras.delivery frontmatter.updatedAt
  .ok { frontmatter with extras := { frontmatter.extras with sourceRefs := sourceRefs } }

structure DraftRecord where
  id : String
  uri : String
  title : String
  deliveryState : DeliveryState
  delivery : Option DraftDelivery
  recipientUri : String
  purpose : String
  format : DraftFormat
  taskUri : Option String
  sourceRefs : List String
  body : String
  path : String
  createdAt : AwareDatetime
  updatedAt : AwareDatetime
deriving DecidableEq

def requireDraftUri (record : DraftRecord) : Except String Unit :=
  match library.parseUri record.uri with
  | none => .error "uri"
  | some parsed => check (parsed.entityType == "draft" && parsed.entityId == record.id) "draft URI identity must match its ID"

/-- `DraftRecord.model_validate`, with `validate_identity`. -/
def DraftRecord.modelValidate (record : DraftRecord) : Except String Unit := do
  constrain (isDraftId record.id) "id"
  requireDraftUri library record
  validateDelivery record.deliveryState record.delivery record.updatedAt

def recordOf (refined : DraftFrontmatter) (body path : String) : DraftRecord where
  id := refined.id
  uri := refined.uri
  title := refined.title
  deliveryState := refined.extras.deliveryState
  delivery := refined.extras.delivery
  recipientUri := refined.extras.recipientUri
  purpose := refined.extras.purpose
  format := refined.extras.draftFormat
  taskUri := refined.extras.taskUri
  sourceRefs := refined.extras.sourceRefs
  body := body
  path := path
  createdAt := refined.createdAt
  updatedAt := refined.updatedAt

def draftFrontmatterRecord (frontmatter : DraftFrontmatter) (body path : String) : Except String DraftRecord := do
  let refined ← refineDraft library frontmatter
  let record := recordOf refined body path
  record.modelValidate library
  .ok record

end

/-! What the reader of drafts accepts. -/

section
variable {library : Library} {frontmatter refined : DraftFrontmatter}

/-- The tests of a draft, without the shared ones and the rule of its delivery. -/
structure DraftShape (library : Library) (frontmatter : DraftFrontmatter) (sourceRefs : List String) : Prop where
  entityType : frontmatter.entityType = "draft"
  status : frontmatter.status = some "draft"
  delivery : checkSome (DraftDelivery.modelValidate library) frontmatter.extras.delivery = .ok ()
  recipient : canonicalTypedUri library frontmatter.extras.recipientUri "person" = .ok ()
  task : checkSome (fun taskUri => canonicalTypedUri library taskUri "task") frontmatter.extras.taskUri = .ok ()
  references : validateSourceRefs library.platform frontmatter.extras.sourceRefs = .ok sourceRefs

theorem refineDraft_ok : refineDraft library frontmatter = .ok refined ↔
    frontmatter.modelValidate library = .ok () ∧
      (∃ sourceRefs, DraftShape library frontmatter sourceRefs ∧
        refined = { frontmatter with extras := { frontmatter.extras with sourceRefs := sourceRefs } }) ∧
      validateDelivery frontmatter.extras.deliveryState frontmatter.extras.delivery frontmatter.updatedAt = .ok () := by
  constructor
  · intro accepted
    obtain ⟨_, shared, accepted⟩ := bind_ok.mp accepted
    obtain ⟨entityType, accepted⟩ := constrain_bind_ok.mp accepted
    obtain ⟨status, accepted⟩ := constrain_bind_ok.mp accepted
    obtain ⟨_, delivery, accepted⟩ := bind_ok.mp accepted
    obtain ⟨_, recipient, accepted⟩ := bind_ok.mp accepted
    obtain ⟨_, task, accepted⟩ := bind_ok.mp accepted
    obtain ⟨sourceRefs, references, accepted⟩ := bind_ok.mp accepted
    obtain ⟨_, rule, same⟩ := bind_ok.mp accepted
    cases same
    exact ⟨shared, ⟨sourceRefs, ⟨beq_iff_eq.mp entityType, beq_iff_eq.mp status, delivery, recipient, task, references⟩,
      rfl⟩, rule⟩
  · rintro ⟨shared, ⟨sourceRefs, shape, rfl⟩, rule⟩
    apply bind_ok.mpr ⟨(), shared, _⟩
    apply constrain_bind_ok.mpr ⟨beq_iff_eq.mpr shape.entityType, _⟩
    apply constrain_bind_ok.mpr ⟨beq_iff_eq.mpr shape.status, _⟩
    apply bind_ok.mpr ⟨(), shape.delivery, _⟩
    apply bind_ok.mpr ⟨(), shape.recipient, _⟩
    apply bind_ok.mpr ⟨(), shape.task, _⟩
    apply bind_ok.mpr ⟨sourceRefs, shape.references, _⟩
    exact bind_ok.mpr ⟨(), rule, rfl⟩

theorem draftFrontmatterRecord_ok {body path : String} {record : DraftRecord} :
    draftFrontmatterRecord library frontmatter body path = .ok record ↔
      ∃ refined, refineDraft library frontmatter = .ok refined ∧ isDraftId refined.id = true ∧
        requireDraftUri library (recordOf refined body path) = .ok () ∧ record = recordOf refined body path := by
  rw [draftFrontmatterRecord, bind_ok]
  constructor
  · rintro ⟨refined, shaped, accepted⟩
    obtain ⟨_, valid, same⟩ := bind_ok.mp accepted
    obtain ⟨id, valid⟩ := constrain_bind_ok.mp valid
    obtain ⟨_, uri, _⟩ := bind_ok.mp valid
    cases same
    exact ⟨refined, shaped, id, uri, rfl⟩
  · rintro ⟨refined, shaped, id, uri, rfl⟩
    obtain ⟨_, ⟨sourceRefs, _, same⟩, rule⟩ := refineDraft_ok.mp shaped
    subst same
    refine ⟨_, shaped, bind_ok.mpr ⟨(), ?_, rfl⟩⟩
    exact constrain_bind_ok.mpr ⟨id, bind_ok.mpr ⟨(), uri, rule⟩⟩

end
end Workctx.Drafting
