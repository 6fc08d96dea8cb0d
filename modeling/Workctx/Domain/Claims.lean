import Workctx.Domain.Uris

/-! Claims, and the identifiers of the records that are no entities. -/

namespace Workctx.Domain

/-! Identifiers. -/

def isNumbered (tag : String) (width : Nat) (text : String) : Bool :=
  tag.toList.isPrefixOf text.toList &&
    let rest := text.toList.drop tag.length
    isDigits 4 (rest.take 4) && (rest.drop 4).take 1 == ['-'] && isDigits width (rest.drop 5)

def isClaimId (text : String) : Bool := isNumbered "CLM-" 5 text

def isEvidenceId (text : String) : Bool := matchesDatedSequence "EVD-".toList text.toList

/-- An evidence id, `#OBS-` and three digits. -/
def isObservationId (text : String) : Bool :=
  let front := text.toList.takeWhile (· != '#')
  let rest := text.toList.drop front.length
  matchesDatedSequence "EVD-".toList front && "#OBS-".toList.isPrefixOf rest && isDigits 3 (rest.drop 5)

/-! Claims. -/

inductive ClaimStatus where
  | current
  | superseded
  | retracted
  | uncertain
deriving DecidableEq

def ClaimStatus.value : ClaimStatus → String
  | .current => "current"
  | .superseded => "superseded"
  | .retracted => "retracted"
  | .uncertain => "uncertain"

def ClaimStatus.parse (text : String) : Option ClaimStatus :=
  [.current, .superseded, .retracted, .uncertain].find? fun status => status.value == text

structure Claim where
  id : String
  subject : String
  predicate : String
  object : Json.Value
  observedAt : AwareDatetime
  validFrom : Option AwareDatetime
  validTo : Option AwareDatetime
  status : ClaimStatus
  supersedes : Option String
  supersededBy : Option String
  confidence : String
  sourceObservations : List String

section
variable (library : Library)

def validateWorkctxEntityUri (value : String) : Except String Unit :=
  match library.parseUri value with
  | none => .error "URI scheme must be 'workctx'"
  | some uri => do
    check (entityTypes.contains uri.entityType) ("Unknown Work Context entity type: '" ++ uri.entityType ++ "'")
    check (uriText uri == value) "Work Context entity reference must use its canonical URI encoding"

/-- One of `validate_source_observations`, in its canonical form. -/
def sourceObservation (value : String) : Except String String :=
  match library.parseUri value with
  | none => .error "URI scheme must be 'workctx'"
  | some uri => do
    check (uri.entityType == "observation") "source_observations must reference observation entities"
    check (isObservationId uri.entityId) ("Invalid observation ID: '" ++ uri.entityId ++ "'")
    .ok (uriText uri)

def Claim.modelValidate (claim : Claim) : Except String Claim := do
  check (isClaimId claim.id) ("Invalid claim ID: '" ++ claim.id ++ "'")
  validateWorkctxEntityUri library claim.subject
  constrain (claim.predicate != "") "predicate"
  constrain (["low", "medium", "high"].contains claim.confidence) "confidence"
  checkSome (fun id => check (isClaimId id) ("Invalid claim ID: '" ++ id ++ "'")) claim.supersedes
  checkSome (fun id => check (isClaimId id) ("Invalid claim ID: '" ++ id ++ "'")) claim.supersededBy
  constrain (!claim.sourceObservations.isEmpty) "source_observations"
  let canonical ← claim.sourceObservations.mapM (sourceObservation library)
  check (decide canonical.Nodup) "source_observations must contain unique canonical values"
  .ok { claim with sourceObservations := canonical }

theorem Claim.modelValidate_made {claim valid : Claim} (accepted : claim.modelValidate library = .ok valid) :
    ∃ canonical, valid = { claim with sourceObservations := canonical } := by
  unfold Claim.modelValidate at accepted
  obtain ⟨_, accepted⟩ := check_bind_ok.mp accepted
  obtain ⟨_, _, accepted⟩ := bind_ok.mp accepted
  obtain ⟨_, accepted⟩ := constrain_bind_ok.mp accepted
  obtain ⟨_, accepted⟩ := constrain_bind_ok.mp accepted
  obtain ⟨_, _, accepted⟩ := bind_ok.mp accepted
  obtain ⟨_, _, accepted⟩ := bind_ok.mp accepted
  obtain ⟨_, accepted⟩ := constrain_bind_ok.mp accepted
  obtain ⟨canonical, _, accepted⟩ := bind_ok.mp accepted
  obtain ⟨_, accepted⟩ := check_bind_ok.mp accepted
  exact ⟨canonical, (Except.ok.inj accepted).symm⟩

end
end Workctx.Domain
