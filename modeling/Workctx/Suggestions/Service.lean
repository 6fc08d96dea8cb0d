import Workctx.Services.World

/-! The suggestion service as clients of the workspace: `create`, `adopt` and `reject`, in which every
read of a file, the read of the ledger and the transaction are actions of their own. -/

namespace Workctx.Suggestions
open Workctx.Concurrent Workctx.Text Workctx.Json Workctx.Domain Workctx.Staging Workctx.Engine Workctx.Services

/-- The errors of the service, with their own texts where the call gives one. -/
inductive SuggestionError where
  | validation (message : String)
  | approvalRequired
  | notFound
  | context
  | proposal (message : String)
  | state (message : String)
  | sequenceExhausted (day slug : String)
  | transaction (failure : Failure)
deriving DecidableEq

/-- The actions of the service. Of one it is said what it is: the read of the bytes that a
transition will replace. -/
inductive Note where
  | plain
  | expected (suggestionId : String)
deriving DecidableEq

abbrev SuggestionWorld := World Unit

abbrev SuggestionClient := Client SuggestionWorld Note SuggestionError

/-- The members of a suggestion among those of every document. -/
def suggestionFields {platform : Platform} : Extras platform → Option (SuggestionFields platform)
  | .suggestion fields => some fields
  | _ => none

structure SuggestionDocument (library : Library) where
  record : SuggestionRecord library
  body : String

def unreadable : SuggestionError := .state "A canonical suggestion record is invalid."

def notRegular : SuggestionError := .state "A canonical suggestion path is not a regular file."

section
variable (site : Site)

/-- The document of a suggestion file, as `_read` reads it. -/
def documentAt (suggestionId : String) (content : Bytes) : Except SuggestionError (SuggestionDocument site.library) :=
  match site.parse content with
  | none => .error unreadable
  | some parsed =>
    match readSuggestion site.library ⟨suggestionPath suggestionId, parsed.1, parsed.2⟩ with
    | .error _ => .error unreadable
    | .ok record =>
      if record.id = suggestionId then .ok ⟨record, parsed.2⟩
      else .error (.state "Suggestion identity does not match its canonical path.")

def namedIdentifier (value : String) : Except SuggestionError String :=
  if "workctx://".toList.isPrefixOf value.toList then
    match site.library.parseUri value with
    | none => .error .notFound
    | some parsed =>
      if parsed.contextId ≠ site.contextId then .error .context
      else if parsed.entityType ≠ "investigation" ∨ site.library.formatUri parsed ≠ value then .error .notFound
      else .ok parsed.entityId
  else .ok value

def identifier (value : String) : Except SuggestionError String := do
  let suggestionId ← namedIdentifier site value
  if isSuggestionId suggestionId then .ok suggestionId else .error .notFound

/-- `_read` of a file that is there. -/
def readContent (suggestionId : String) : SuggestionClient (SuggestionDocument site.library) := do
  let content ← Client.observe .plain fun world => world.files.get (suggestionPath suggestionId)
  match content with
  | none => .raise notRegular
  | some content => Client.ofExcept (documentAt site suggestionId content)

/-- `_read` with `required=False` -/
def readOptional (value : String) : SuggestionClient (Option (SuggestionDocument site.library)) := do
  let suggestionId ← Client.ofExcept (identifier site value)
  let present ← Client.observe .plain fun world => (world.files.get (suggestionPath suggestionId)).isSome
  if present then do
    let document ← readContent site suggestionId
    .ret (some document)
  else .ret none

/-- `_read` with `required=True`, and `get`. -/
def readRequired (value : String) : SuggestionClient (SuggestionDocument site.library) := do
  let suggestionId ← Client.ofExcept (identifier site value)
  let present ← Client.observe .plain fun world => (world.files.get (suggestionPath suggestionId)).isSome
  .ensure present .notFound
  readContent site suggestionId

/-- `_content_hash`, of a suggestion's own path. -/
def contentHash (suggestionId : String) : SuggestionClient String := do
  let content ← Client.observe (.expected suggestionId) fun world => world.files.get (suggestionPath suggestionId)
  match content with
  | some content => .ret (hashBytes site content)
  | none => .raise notRegular

def transactionApply (proposal : Proposal) (approved : Bool) : SuggestionClient Event := do
  let outcome ← Client.transact .plain fun world => (commit site proposal approved world).mapError .transaction
  Client.ofExcept (outcome.mapError .transaction)

def headHash : SuggestionClient String := Client.observe .plain fun world => site.revision world.events

/-! The embedded proposal. -/

def validateDataFixScope (proposal : TransactionProposal site.library.platform) : Except SuggestionError Unit :=
  if proposal.operations.any fun operation => operation.paths.any fun path =>
      (site.library.platform.casefold "03_work/suggestions/").toList.isPrefixOf
        (site.library.platform.casefold path).toList then
    .error (.proposal "Data-fix proposals cannot mutate suggestion lifecycle records.")
  else .ok ()

def compileOperation : TransactionOperation → FileOperation
  | .create target payload => .create target (site.compile payload)
  | .update target payload expectedHash => .update target (site.compile payload) expectedHash
  | .move source destination expectedHash => .move source destination expectedHash
  | .deleteGenerated target expectedHash => .deleteGenerated target expectedHash

def embeddedOperations (record : SuggestionRecord site.library) : List FileOperation :=
  (record.extras.proposal.map fun proposal => proposal.operations.map (compileOperation site)).getD []

/-! The lifecycle proposal. -/

/-- What a call draws: the verdict of `validate_proposal` on an embedded proposal, the clock and the
token of its own proposal. -/
structure SuggestionDraws where
  embeddedValid : Bool
  clock : AwareDatetime
  token : String

structure LifecycleChange where
  action : String
  suggestionId : String
  actor : Actor
  createdAt : AwareDatetime
  sourceRefs : List String
  operations : List FileOperation
  preconditions : List TransactionCondition
  postconditions : List TransactionCondition

/-- `_lifecycle_proposal`, with the head it is based on. -/
def lifecycleProposal (token : String) (change : LifecycleChange) (base : String) : Proposal where
  id := "TXP-" ++ site.utcStamp change.createdAt ++ "-suggestion-" ++ change.action ++ "-" ++
    change.suggestionId.toLower ++ "-" ++ token
  baseRevision := base
  actor := change.actor
  sourceRefs := change.sourceRefs.eraseDups
  operations := change.operations
  preconditions := change.preconditions
  postconditions := change.postconditions
  approvalRequired := true

inductive MutationKind where
  | created
  | adopted
  | rejected
deriving DecidableEq

structure SuggestionMutationResult (library : Library) where
  operation : MutationKind
  suggestion : SuggestionDocument library
  supersededId : Option String
  receipt : Event

def submit (kind : MutationKind) (supersededId : Option String) (draws : SuggestionDraws) (change : LifecycleChange) :
    SuggestionClient (SuggestionMutationResult site.library) := do
  let base ← headHash site
  let proposal := lifecycleProposal site draws.token change base
  .ensure (acceptsProposal site proposal) (.validation "proposal")
  let receipt ← transactionApply site proposal true
  let saved ← readRequired site change.suggestionId
  .ret ⟨kind, saved, supersededId, receipt⟩

/-! The records. -/

def generic (record : SuggestionRecord site.library) : EntityFrontmatter (Extras site.library.platform) :=
  narrow record (.suggestion record.extras)

/-- The bytes of `_record_payload`. -/
def recordPayload (record : SuggestionRecord site.library) (body : String) : Bytes := site.render (generic site record) body

def updatedRecord (record : SuggestionRecord site.library) (status : SuggestionStatus) (updatedAt : AwareDatetime)
    (supersededBy : Option String) : Except SuggestionError (SuggestionRecord site.library) :=
  (SuggestionRecord.modelValidate
    { record with
      status := some status.value
      updatedAt := updatedAt
      extras := { record.extras with supersededBy := supersededBy } }).mapError .validation

def updateOf (suggestionId : String) (content : Bytes) (expectedHash : String) : FileOperation :=
  .update (suggestionPath suggestionId) content expectedHash

/-! `adopt` and `reject`. -/

/-- The change of `_transition`, with the operations of an embedded proposal. -/
def transitionChange (current updated : SuggestionDocument site.library) (status : SuggestionStatus)
    (embedded : Option (TransactionProposal site.library.platform)) (expectedHash : String) : LifecycleChange where
  action := status.value
  suggestionId := current.record.id
  actor := current.record.extras.actor
  createdAt := updated.record.updatedAt
  sourceRefs := current.record.uri :: (embedded.map TransactionProposal.sourceRefs).getD []
  operations := (embedded.map fun proposal => proposal.operations.map (compileOperation site)).getD [] ++
    [updateOf current.record.id (recordPayload site updated.record updated.body) expectedHash]
  preconditions := ((embedded.map TransactionProposal.preconditions).getD [] ++
    [TransactionCondition.pathHash (suggestionPath current.record.id) expectedHash]).eraseDups
  postconditions := ((embedded.map TransactionProposal.postconditions).getD [] ++
    [TransactionCondition.pathHash (suggestionPath current.record.id)
      (hashBytes site (recordPayload site updated.record updated.body))]).eraseDups

/-- The part of `_transition` behind its state check. -/
def transitionFrom (current : SuggestionDocument site.library) (status : SuggestionStatus) (draws : SuggestionDraws) :
    SuggestionClient (SuggestionMutationResult site.library) := do
  let updated ← Client.ofExcept (updatedRecord site current.record status (normalizeTime draws.clock) none)
  let expectedHash ← contentHash site current.record.id
  let embedded := if status = .adopted then current.record.extras.proposal else none
  Client.ofExcept (checkSome (validateDataFixScope site) embedded)
  submit site (if status = .adopted then .adopted else .rejected) none draws
    (transitionChange site current ⟨updated, current.body⟩ status embedded expectedHash)

def transition (suggestion : String) (status : SuggestionStatus) (approved : Bool) (draws : SuggestionDraws) :
    SuggestionClient (SuggestionMutationResult site.library) := do
  .ensure approved .approvalRequired
  let current ← readRequired site suggestion
  .ensure (current.record.statusOf == some .isOpen) (.state "Only an open suggestion can change lifecycle state.")
  transitionFrom site current status draws

def adopt (suggestion : String) (approved : Bool) (draws : SuggestionDraws) :
    SuggestionClient (SuggestionMutationResult site.library) := transition site suggestion .adopted approved draws

def reject (suggestion : String) (approved : Bool) (draws : SuggestionDraws) :
    SuggestionClient (SuggestionMutationResult site.library) := transition site suggestion .rejected approved draws

/-! `create`. -/

structure SuggestionPayload (platform : Platform) where
  id : Option String
  type : SuggestionType
  rationale : String
  signal : String
  sourceRefs : List String
  proposal : Option (TransactionProposal platform)
  actor : Actor
  supersedes : Option String
  body : String

variable {site}

def SuggestionPayload.modelValidate (payload : SuggestionPayload site.library.platform) :
    Except String (SuggestionPayload site.library.platform) := do
  constrain (payload.id.all isSuggestionId) "id"
  constrain (lengthBetween 1 1000 payload.rationale) "rationale"
  constrain (lengthBetween 1 2000 payload.signal) "signal"
  constrain (1 ≤ payload.sourceRefs.length && payload.sourceRefs.length ≤ 100) "source_refs"
  constrain (payload.supersedes.all isSuggestionId) "supersedes"
  constrain (lengthBetween 0 100000 payload.body) "body"
  printableLine payload.rationale "rationale"
  printableLine payload.signal "signal"
  let sourceRefs ← validateSourceRefs site.library.platform payload.sourceRefs
  check (payload.type != .dataFix || payload.proposal.isSome) "data_fix suggestions require a transaction proposal"
  check (payload.type == .dataFix || payload.proposal.isNone)
    "only data_fix suggestions may embed a transaction proposal"
  check (payload.proposal.all TransactionProposal.approvalRequired) "embedded data-fix proposals must require approval"
  check (payload.proposal.all fun proposal => proposal.actor == payload.actor)
    "suggestion actor must match the embedded proposal actor"
  check (payload.id.isNone || payload.supersedes != payload.id) "a suggestion cannot supersede itself"
  .ok { payload with sourceRefs := sourceRefs }

variable (site)

def SuggestionType.value : SuggestionType → String
  | .dataFix => "data_fix"
  | .skillOverride => "skill_override"
  | .engineProposal => "engine_proposal"

/-- `_title` -/
def titleOf (rationale : String) : String :=
  let short := ((rationale.toList.take 200).reverse.dropWhile isSpace).reverse
  if short.isEmpty then "Suggestion" else String.ofList short

/-- `str(WorkctxUri(...))` of a suggestion -/
def suggestionUri (suggestionId : String) : String := site.library.formatUri ⟨site.contextId, "investigation", suggestionId⟩

def referenceTo (relation target : String) : Value :=
  .object [("relation", .string relation), ("target", .string target), ("confidence", .string "high")]

def newRecord (payload : SuggestionPayload site.library.platform) (suggestionId : String) (createdAt : AwareDatetime) :
    Except SuggestionError (SuggestionRecord site.library) :=
  (SuggestionRecord.modelValidate
    { id := suggestionId
      entityType := "investigation"
      title := titleOf payload.rationale
      uri := suggestionUri site suggestionId
      aliases := []
      status := some SuggestionStatus.isOpen.value
      confidence := some "high"
      tags := ["suggestion", payload.type.value]
      topics := []
      references := payload.sourceRefs.map (referenceTo "evidenced_by") ++
        payload.supersedes.toList.map fun old => referenceTo "supersedes" (suggestionUri site old)
      createdAt := createdAt
      updatedAt := createdAt
      extras :=
        { type := payload.type
          rationale := payload.rationale
          signal := payload.signal
          sourceRefs := payload.sourceRefs
          proposal := payload.proposal
          actor := payload.actor
          supersedes := payload.supersedes
          supersededBy := none } }).mapError .validation

def validateEmbeddedProposal (draws : SuggestionDraws) (proposal : TransactionProposal site.library.platform) :
    Except SuggestionError Unit := do
  if proposal.contextId ≠ site.contextId then .error .context
  validateDataFixScope site proposal
  if draws.embeddedValid then .ok () else .error (.proposal "The embedded data-fix proposal is not valid.")

section
variable (payload : SuggestionPayload site.library.platform) (draws : SuggestionDraws)

/-- The change of `create` without a predecessor. -/
def creationChange (record : SuggestionRecord site.library) : LifecycleChange where
  action := "create"
  suggestionId := record.id
  actor := payload.actor
  createdAt := record.createdAt
  sourceRefs := payload.sourceRefs
  operations := [.create (suggestionPath record.id) (recordPayload site record payload.body)]
  preconditions := [.pathAbsent (suggestionPath record.id)]
  postconditions := [.pathHash (suggestionPath record.id) (hashBytes site (recordPayload site record payload.body))]

/-- The change of `create` with a predecessor, which it supersedes. -/
def supersedingChange (record : SuggestionRecord site.library) (predecessor : SuggestionDocument site.library)
    (superseded : SuggestionRecord site.library) (oldHash : String) : LifecycleChange :=
  let created := creationChange site payload record
  let content := recordPayload site superseded predecessor.body
  { created with
    sourceRefs := created.sourceRefs ++ [predecessor.record.uri]
    operations := created.operations ++ [updateOf predecessor.record.id content oldHash]
    preconditions := created.preconditions ++ [.pathHash (suggestionPath predecessor.record.id) oldHash]
    postconditions := created.postconditions ++ [.pathHash (suggestionPath predecessor.record.id) (hashBytes site content)] }

/-- `_allocate_id`, for a payload without an identifier. -/
def chooseId : SuggestionClient String :=
  match payload.id with
  | some suggestionId => .ret suggestionId
  | none => do
    let day := site.library.utcDay (normalizeTime draws.clock)
    let slug := slugOf site.library.unicode "suggestion" payload.rationale
    let allocated ← Client.observe .plain fun world =>
      allocateId isSuggestionId "03_work/suggestions/" ("SUG-" ++ day ++ "-" ++ slug ++ "-") world.files
    Client.ofExcept (match allocated with
      | some suggestionId => .ok suggestionId
      | none => .error (.sequenceExhausted day slug))

/-- The part of `create` behind its state checks, with a predecessor. -/
def supersede (suggestionId : String) (predecessor : SuggestionDocument site.library) :
    SuggestionClient (SuggestionMutationResult site.library) := do
  .ensure (predecessor.record.statusOf == some .isOpen) (.state "Only an open suggestion can be superseded.")
  .ensure (predecessor.record.extras.type == payload.type) (.state "A replacement must preserve the suggestion type.")
  let record ← Client.ofExcept (newRecord site payload suggestionId (normalizeTime draws.clock))
  let oldHash ← contentHash site predecessor.record.id
  let superseded ← Client.ofExcept
    (updatedRecord site predecessor.record .superseded (normalizeTime draws.clock) (some suggestionId))
  submit site .created (some predecessor.record.id) draws (supersedingChange site payload record predecessor superseded oldHash)

/-- The part of `create` behind its identifier. -/
def createAs (suggestionId : String) : SuggestionClient (SuggestionMutationResult site.library) := do
  let existing ← readOptional site suggestionId
  .ensure existing.isNone (.state "A suggestion with the requested identity already exists.")
  match payload.supersedes with
  | some old => do
    let predecessor ← readRequired site old
    supersede site payload draws suggestionId predecessor
  | none => do
    let record ← Client.ofExcept (newRecord site payload suggestionId (normalizeTime draws.clock))
    submit site .created none draws (creationChange site payload record)

/-- `create` of a validated payload. -/
def createValidated (approved : Bool) : SuggestionClient (SuggestionMutationResult site.library) := do
  .ensure approved .approvalRequired
  Client.ofExcept (checkSome (validateEmbeddedProposal site draws) payload.proposal)
  let suggestionId ← chooseId site payload draws
  createAs site payload draws suggestionId

def create (approved : Bool) : SuggestionClient (SuggestionMutationResult site.library) := do
  let validated ← Client.ofExcept (payload.modelValidate.mapError .validation)
  createValidated site validated draws approved

end
end
end Workctx.Suggestions
