import Workctx.Domain.Entities
import Workctx.Engine.Proposal

/-! The suggestion: its lifecycle, its front matter and the contract of its record. -/

namespace Workctx.Suggestions
open Workctx.Domain Workctx.Engine

inductive SuggestionType where
  | dataFix
  | skillOverride
  | engineProposal
deriving DecidableEq

inductive SuggestionStatus where
  | isOpen
  | adopted
  | rejected
  | superseded
deriving DecidableEq

def SuggestionStatus.value : SuggestionStatus → String
  | .isOpen => "open"
  | .adopted => "adopted"
  | .rejected => "rejected"
  | .superseded => "superseded"

def SuggestionStatus.parse (text : String) : Option SuggestionStatus :=
  [.isOpen, .adopted, .rejected, .superseded].find? fun status => status.value == text

theorem SuggestionStatus.parse_value (status : SuggestionStatus) : parse status.value = some status := by
  cases status <;> rfl

/-- The members a suggestion adds to the shared front matter. -/
structure SuggestionFields (platform : Platform) where
  type : SuggestionType
  rationale : String
  signal : String
  sourceRefs : List String
  proposal : Option (TransactionProposal platform)
  actor : Actor
  supersedes : Option String
  supersededBy : Option String

variable (library : Library)

/-- `SuggestionRecord`; its status is kept as text. -/
abbrev SuggestionRecord := EntityFrontmatter (SuggestionFields library.platform)

variable {library}

namespace SuggestionRecord

def statusOf (record : SuggestionRecord library) : Option SuggestionStatus := record.status.bind SuggestionStatus.parse

/-- The rules between the type and the embedded proposal. -/
def requireTypeContract (record : SuggestionRecord library) : Except String Unit :=
  match record.extras.type, record.extras.proposal with
  | .dataFix, none => .error "data_fix suggestions require a transaction proposal"
  | .dataFix, some proposal => do
    check proposal.approvalRequired "embedded data-fix proposals must require approval"
    check (proposal.actor == record.extras.actor) "suggestion actor must match the embedded proposal actor"
  | _, some _ => .error "only data_fix suggestions may embed a transaction proposal"
  | _, none => .ok ()

def requireProposalContext (record : SuggestionRecord library) : Except String Unit :=
  match library.parseUri record.uri with
  | none => .error "uri must be a valid workctx:// URI"
  | some parsed =>
    check (record.extras.proposal.all fun proposal => proposal.contextId == parsed.contextId)
      "embedded proposal context must match the suggestion context"

def requireSupersession (record : SuggestionRecord library) : Except String Unit := do
  check (record.statusOf != some .superseded || record.extras.supersededBy.isSome)
    "superseded suggestions require superseded_by"
  check (record.statusOf == some .superseded || record.extras.supersededBy.isNone)
    "only superseded suggestions may set superseded_by"
  check (record.extras.supersedes != some record.id && record.extras.supersededBy != some record.id)
    "suggestion supersession links cannot be self-referential"

def validateSuggestionContract (record : SuggestionRecord library) : Except String Unit := do
  check (String.ofList ((record.id.toList.drop 4).take 8) == library.utcDay record.createdAt)
    "suggestion ID date must match created_at in UTC"
  check (decide (record.createdAt.instant ≤ record.updatedAt.instant)) "updated_at cannot precede created_at"
  requireProposalContext record
  requireTypeContract record
  requireSupersession record

def modelValidate (record : SuggestionRecord library) : Except String (SuggestionRecord library) := do
  EntityFrontmatter.modelValidate library record
  constrain (isSuggestionId record.id) "id"
  constrain (record.entityType == "investigation") "entity_type"
  constrain (lengthBetween 1 200 record.title) "title"
  constrain record.statusOf.isSome "status"
  constrain (lengthBetween 1 1000 record.extras.rationale) "rationale"
  constrain (lengthBetween 1 2000 record.extras.signal) "signal"
  constrain (1 ≤ record.extras.sourceRefs.length && record.extras.sourceRefs.length ≤ 100) "source_refs"
  constrain (record.extras.supersedes.all isSuggestionId) "supersedes"
  constrain (record.extras.supersededBy.all isSuggestionId) "superseded_by"
  printableLine record.extras.rationale "rationale"
  printableLine record.extras.signal "signal"
  let sourceRefs ← validateSourceRefs library.platform record.extras.sourceRefs
  validateSuggestionContract record
  .ok { record with extras := { record.extras with sourceRefs := sourceRefs } }

/-- The tests of the fields, without the shared ones and the contract between the fields. -/
structure Shape (record : SuggestionRecord library) (sourceRefs : List String) : Prop where
  id : isSuggestionId record.id = true
  entityType : (record.entityType == "investigation") = true
  title : lengthBetween 1 200 record.title = true
  status : record.statusOf.isSome = true
  rationale : lengthBetween 1 1000 record.extras.rationale = true
  signal : lengthBetween 1 2000 record.extras.signal = true
  count : (decide (1 ≤ record.extras.sourceRefs.length) && decide (record.extras.sourceRefs.length ≤ 100)) = true
  supersedes : record.extras.supersedes.all isSuggestionId = true
  supersededBy : record.extras.supersededBy.all isSuggestionId = true
  rationaleLine : printableLine record.extras.rationale "rationale" = .ok ()
  signalLine : printableLine record.extras.signal "signal" = .ok ()
  references : validateSourceRefs library.platform record.extras.sourceRefs = .ok sourceRefs

theorem modelValidate_ok {record again : SuggestionRecord library} : record.modelValidate = .ok again ↔
    EntityFrontmatter.modelValidate library record = .ok () ∧
      (∃ sourceRefs, record.Shape sourceRefs ∧
        again = { record with extras := { record.extras with sourceRefs := sourceRefs } }) ∧
      record.validateSuggestionContract = .ok () := by
  constructor
  · intro accepted
    obtain ⟨_, shared, accepted⟩ := bind_ok.mp accepted
    obtain ⟨id, accepted⟩ := constrain_bind_ok.mp accepted
    obtain ⟨entityType, accepted⟩ := constrain_bind_ok.mp accepted
    obtain ⟨title, accepted⟩ := constrain_bind_ok.mp accepted
    obtain ⟨status, accepted⟩ := constrain_bind_ok.mp accepted
    obtain ⟨rationale, accepted⟩ := constrain_bind_ok.mp accepted
    obtain ⟨signal, accepted⟩ := constrain_bind_ok.mp accepted
    obtain ⟨count, accepted⟩ := constrain_bind_ok.mp accepted
    obtain ⟨supersedes, accepted⟩ := constrain_bind_ok.mp accepted
    obtain ⟨supersededBy, accepted⟩ := constrain_bind_ok.mp accepted
    obtain ⟨_, rationaleLine, accepted⟩ := bind_ok.mp accepted
    obtain ⟨_, signalLine, accepted⟩ := bind_ok.mp accepted
    obtain ⟨sourceRefs, references, accepted⟩ := bind_ok.mp accepted
    obtain ⟨_, contract, same⟩ := bind_ok.mp accepted
    cases same
    exact ⟨shared, ⟨sourceRefs, ⟨id, entityType, title, status, rationale, signal, count, supersedes, supersededBy,
      rationaleLine, signalLine, references⟩, rfl⟩, contract⟩
  · rintro ⟨shared, ⟨sourceRefs, shape, rfl⟩, contract⟩
    unfold modelValidate
    apply bind_ok.mpr ⟨(), shared, _⟩
    apply constrain_bind_ok.mpr ⟨shape.id, _⟩
    apply constrain_bind_ok.mpr ⟨shape.entityType, _⟩
    apply constrain_bind_ok.mpr ⟨shape.title, _⟩
    apply constrain_bind_ok.mpr ⟨shape.status, _⟩
    apply constrain_bind_ok.mpr ⟨shape.rationale, _⟩
    apply constrain_bind_ok.mpr ⟨shape.signal, _⟩
    apply constrain_bind_ok.mpr ⟨shape.count, _⟩
    apply constrain_bind_ok.mpr ⟨shape.supersedes, _⟩
    apply constrain_bind_ok.mpr ⟨shape.supersededBy, _⟩
    apply bind_ok.mpr ⟨(), shape.rationaleLine, _⟩
    apply bind_ok.mpr ⟨(), shape.signalLine, _⟩
    apply bind_ok.mpr ⟨sourceRefs, shape.references, _⟩
    exact bind_ok.mpr ⟨(), contract, rfl⟩

end SuggestionRecord
end Workctx.Suggestions
