import Workctx.Domain.Claims
import Workctx.Domain.Tasks

/-! The vocabularies of the records that are retrieved. -/

namespace Workctx.Retrieval

inductive RelationType where
  | derivedFrom
  | evidencedBy
  | supports
  | contradicts
  | supersedes
  | parentOf
  | dependsOn
  | blocks
  | requestedBy
  | ownedBy
  | waitingOn
  | produces
  | implements
  | calls
  | publishesTo
  | consumesFrom
  | storesIn
  | authenticatesVia
  | operatedBy
  | affects
  | mentions
  | relatedTo
deriving DecidableEq

def RelationType.value : RelationType → String
  | .derivedFrom => "derived_from"
  | .evidencedBy => "evidenced_by"
  | .supports => "supports"
  | .contradicts => "contradicts"
  | .supersedes => "supersedes"
  | .parentOf => "parent_of"
  | .dependsOn => "depends_on"
  | .blocks => "blocks"
  | .requestedBy => "requested_by"
  | .ownedBy => "owned_by"
  | .waitingOn => "waiting_on"
  | .produces => "produces"
  | .implements => "implements"
  | .calls => "calls"
  | .publishesTo => "publishes_to"
  | .consumesFrom => "consumes_from"
  | .storesIn => "stores_in"
  | .authenticatesVia => "authenticates_via"
  | .operatedBy => "operated_by"
  | .affects => "affects"
  | .mentions => "mentions"
  | .relatedTo => "related_to"

inductive Confidence where
  | low
  | medium
  | high
deriving DecidableEq

inductive EntityType where
  | evidence
  | person
  | team
  | project
  | system
  | service
  | module
  | flow
  | integration
  | decision
  | risk
  | question
  | task
  | claim
  | draft
  | investigation
  | incident
  | observation
  | artifact
deriving DecidableEq

def EntityType.value : EntityType → String
  | .evidence => "evidence"
  | .person => "person"
  | .team => "team"
  | .project => "project"
  | .system => "system"
  | .service => "service"
  | .module => "module"
  | .flow => "flow"
  | .integration => "integration"
  | .decision => "decision"
  | .risk => "risk"
  | .question => "question"
  | .task => "task"
  | .claim => "claim"
  | .draft => "draft"
  | .investigation => "investigation"
  | .incident => "incident"
  | .observation => "observation"
  | .artifact => "artifact"

inductive ObservationKind where
  | fact
  | inference
  | assumption
  | decision
  | commitment
  | task
  | risk
  | blocker
  | dependency
  | question
deriving DecidableEq

/-- The type of a `SourceLocator` -/
inductive LocatorType where
  | lineRange
  | pageRange
  | timeRange
  | message
  | imageRegion
  | jsonPointer
  | tableRange
  | repoRange
  | wholeArtifact
deriving DecidableEq

end Workctx.Retrieval
