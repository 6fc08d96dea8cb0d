import Workctx.Services.World

/-! Evidence staging as a client of the workspace: the relations of a payload are resolved and
attached to their sources, and the staged documents become one proposal. Every read of the
projection, of a file and of the ledger is an action of its own. -/

namespace Workctx.Evidence
open Workctx.Concurrent Workctx.Text Workctx.Json Workctx.Domain Workctx.Staging Workctx.Engine Workctx.Services

/-- The errors of the workflow, with their codes, texts and field paths. -/
inductive EvidenceError where
  | input (code message : String) (path : Option String)
  | context (path : String)
  | state (code message : String)
  | store
  | transaction (failure : Failure)
deriving DecidableEq

/-- What a document of the projection is, and where it was read from. -/
inductive DocumentRecord where
  | entity (sourcePath : String)
  | task (sourcePath : String)
  | other

structure SearchHit where
  id : String
  title : String
  uri : String

/-- The rows of the projection, by the queries that are made of them. -/
structure Projection where
  documentByUri : String → Option DocumentRecord
  entityById : String → Option String
  entitiesByAlias : String → List String
  search : String → List SearchHit
  observation : String → Bool

/-- The actions of the client. Of one it is said what it is: the read of the bytes that an update
expects, behind the read of those it was parsed from. -/
inductive Note where
  | plain
  | hashed (path : String) (parsed : Bytes)

abbrev EvidenceWorld := World Projection

abbrev EvidenceClient := Client EvidenceWorld Note EvidenceError

/-- The document formats of the store, and its URIs. -/
structure Formats (members : Type) where
  /-- The document of `read_entity`: its front matter and its body. -/
  readEntity : Bytes → Option (EntityFrontmatter members × String)
  readTask : Bytes → Option (EntityFrontmatter members × String)
  /-- `model_validate` of the class of the document -/
  accepts : EntityFrontmatter members → Bool
  /-- `render_markdown_bytes` -/
  render : EntityFrontmatter members → String → Bytes
  /-- `validate_workctx_entity_uri(normalize_workctx_uri(...))` -/
  entityUri : String → Option WorkctxUri
  /-- `normalize_workctx_uri` of the URI of an observation -/
  observationUri : String → Option WorkctxUri

/-- `TypedReference`; the times are their JSON texts. -/
structure TypedReference where
  relation : String
  target : String
  confidence : Option String
  sourceObservations : List String
  validFrom : Option String
  validTo : Option String
  note : Option String
deriving DecidableEq

def optional (name : String) (value : Option String) : List (String × Value) :=
  value.toList.map fun text => (name, .string text)

def nullable (name : String) (value : Option String) : List (String × Value) :=
  [(name, (value.map Value.string).getD .null)]

/-- `model_dump(mode="json")`, with the treatment of the times that are not given. -/
def TypedReference.dump (times : String → Option String → List (String × Value)) (reference : TypedReference) : Value :=
  .object ([("relation", .string reference.relation), ("target", .string reference.target)] ++
    optional "confidence" reference.confidence ++
    [("source_observations", .array (reference.sourceObservations.map Value.string))] ++
    times "valid_from" reference.validFrom ++ times "valid_to" reference.validTo ++ optional "note" reference.note)

/-- `_EntityState` and `_TaskState` -/
structure DocumentState (members : Type) where
  isTask : Bool
  target : String
  document : EntityFrontmatter members
  body : String
  expectedHash : Option String

structure StagedClaim where
  id : String
  target : String
  uri : String
  content : Bytes

structure ProposedRelation where
  source : String
  relation : String
  target : String
  confidence : Option String
  sourceObservations : List String
  validFrom : Option String
  validTo : Option String
  note : Option String

/-- A document the payload declares, with what is expected of it in the store when it is a task
that is there already. -/
structure AuthoredDocument (members : Type) where
  target : String
  document : EntityFrontmatter members
  body : String

/-- What the checks of the payload make of it before its relations are attached. -/
structure PreparedPayload (members : Type) where
  artifactId : String
  artifactRef : String
  actor : Actor
  evidenceNote : AuthoredDocument members
  entities : List (AuthoredDocument members)
  tasks : List (AuthoredDocument members × Option String)
  claims : List StagedClaim
  /-- The observations of the payload and their URIs. -/
  observations : List (String × String)
  relations : List ProposedRelation
  proposalId : String

section
variable (site : Site) {members : Type} (formats : Formats members)

/-! The resolver. -/

def unknownEntity (path : String) : EvidenceError :=
  .input "EVIDENCE-UNKNOWN-ENTITY" "A proposed entity reference is unknown and has no explicit declaration." (some path)

def invalidInput (message : String) (path : String) : EvidenceError := .input "EVIDENCE-INVALID-PAYLOAD" message (some path)

structure Declared where
  uri : String
  names : List String

/-- `add_declared` -/
def declare (uri identifier title : String) (aliases : List String) : Declared :=
  ⟨uri, ((uri :: identifier :: title :: aliases).map fun value =>
    site.library.platform.casefold (String.ofList (strip value.toList))).filter fun name => name != ""⟩

def candidatesFor (declared : List Declared) (authored : String) (byId : Option String) (byAlias : List String)
    (hits : List SearchHit) : List String :=
  let folded := site.library.platform.casefold
  (((declared.filter fun entry => entry.names.contains (folded authored)).map Declared.uri) ++ byId.toList ++ byAlias ++
    (hits.filter fun hit => hit.id == authored || folded hit.title == folded authored).map SearchHit.uri).eraseDups

/-- `"://" in text` -/
def hasScheme (text : List Char) : Bool := text.tails.any fun rest => "://".toList.isPrefixOf rest

def isWorkctxText (text : List Char) : Bool := "workctx://".toList.isPrefixOf text

/-- `resolve_entity` of a `workctx://` URI -/
def resolveUri (declared : List Declared) (authored path : String) : EvidenceClient String :=
  match formats.entityUri authored with
  | none => .raise (invalidInput "A proposed entity reference is invalid." path)
  | some parsed =>
    if parsed.contextId ≠ site.contextId then .raise (.context path)
    else if declared.any fun entry => entry.uri == site.library.formatUri parsed then .ret (site.library.formatUri parsed)
    else do
      let known ← Client.observe .plain fun world => (world.remote.documentByUri (site.library.formatUri parsed)).isSome
      .ensure known (unknownEntity path)
      .ret (site.library.formatUri parsed)

/-- `resolve_entity` of a name -/
def resolveName (declared : List Declared) (authored path : String) : EvidenceClient String := do
  let byId ← Client.observe .plain fun world => world.remote.entityById authored
  let byAlias ← Client.observe .plain fun world => world.remote.entitiesByAlias authored
  let hits ← Client.observe .plain fun world => world.remote.search authored
  match candidatesFor site declared authored byId byAlias hits with
  | [] => .raise (unknownEntity path)
  | [canonical] => .ret canonical
  | _ => .raise (.input "EVIDENCE-AMBIGUOUS-ENTITY" "A proposed entity reference resolves to multiple entities." (some path))

def resolveEntity (declared : List Declared) (value path : String) : EvidenceClient String :=
  let authored := strip value.toList
  if authored.isEmpty then .raise (invalidInput "Entity references must not be empty." path)
  else if isWorkctxText authored then resolveUri site formats declared (String.ofList authored) path
  else if hasScheme authored then .raise (unknownEntity path)
  else resolveName site declared (String.ofList authored) path

def resolveTarget (declared : List Declared) (value path : String) : EvidenceClient String :=
  let authored := strip value.toList
  if !hasScheme authored || isWorkctxText authored then resolveEntity site formats declared (String.ofList authored) path
  else
    match site.library.platform.validateDurableReference (String.ofList authored) with
    | some canonical => .ret canonical
    | none => .raise (invalidInput "A proposed relation target is invalid." path)

/-- `_observation_uri` of a text -/
def observationUri (staged : List (String × String)) (value path : String) : EvidenceClient String :=
  match staged.lookup value with
  | some uri => .ret uri
  | none =>
    match formats.observationUri value with
    | none => .raise (invalidInput "An observation reference is invalid." path)
    | some parsed =>
      if parsed.contextId ≠ site.contextId then .raise (.context path)
      else if parsed.entityType ≠ "observation" then
        .raise (invalidInput "An observation reference has the wrong entity type." path)
      else if staged.any fun entry => entry.2 == site.library.formatUri parsed then .ret (site.library.formatUri parsed)
      else do
        let known ← Client.observe .plain fun world => world.remote.observation (site.library.formatUri parsed)
        .ensure known (invalidInput "An observation reference does not resolve." path)
        .ret (site.library.formatUri parsed)

def observationUris (staged : List (String × String)) (path : String) : List String → EvidenceClient (List String)
  | [] => .ret []
  | value :: rest => do
    let uri ← observationUri site formats staged value path
    let uris ← observationUris staged path rest
    .ret (uri :: uris)

/-! Relations. -/

/-- The read of a document, and then of its bytes again for the hash. -/
def loadDocument (isTask : Bool) (sourcePath : String) : EvidenceClient (DocumentState members) := do
  let content ← Client.observe .plain fun world => world.files.get sourcePath
  match content with
  | none => .raise .store
  | some content =>
    match if isTask then formats.readTask content else formats.readEntity content with
    | none => .raise .store
    | some (document, body) => do
      let hashed ← Client.observe (.hashed sourcePath content) fun world => world.files.get sourcePath
      match hashed with
      | none => .raise .store
      | some bytes => .ret ⟨isTask, sourcePath, document, body, some (hashBytes site bytes)⟩

def loadExistingRelationSource (uri : String) : EvidenceClient (DocumentState members) := do
  let record ← Client.observe .plain fun world => world.remote.documentByUri uri
  match record with
  | some (.task sourcePath) => loadDocument site formats true sourcePath
  | some (.entity sourcePath) => loadDocument site formats false sourcePath
  | _ => .raise (invalidInput "A relation source must be an evidence note, entity, or task." "$.relations")

/-- The reference is among the dumped ones; it is compared as it is without its null members. -/
def lists (references : List Value) (reference : TypedReference) : Bool :=
  references.any fun item => Json.print compact 0 item == Json.print compact 0 (reference.dump optional)

def withReference (document : EntityFrontmatter members) (reference : TypedReference) : EntityFrontmatter members :=
  if lists document.references reference then document
  else { document with references := document.references ++ [reference.dump nullable] }

def appendReference (document : EntityFrontmatter members) (reference : TypedReference) :
    Except EvidenceError (EntityFrontmatter members) :=
  if formats.accepts (withReference document reference) then .ok (withReference document reference)
  else .error (invalidInput "The staging payload violates a typed contract." "$")

def relationPath (index : Nat) (field : String) : String := "$.relations[" ++ toString index ++ "]." ++ field

abbrev DocumentStates (members : Type) := Directory String (DocumentState members)

def relationSource (states : DocumentStates members) (uri : String) : EvidenceClient (DocumentState members) :=
  match states.get uri with
  | some state => .ret state
  | none => loadExistingRelationSource site formats uri

/-- One relation of `_resolve_and_attach_relations` -/
def attachRelation (declared : List Declared) (staged : List (String × String)) (index : Nat) (relation : ProposedRelation)
    (states : DocumentStates members) : EvidenceClient (DocumentStates members) := do
  let sourceUri ← resolveEntity site formats declared relation.source (relationPath index "source")
  let target ← resolveTarget site formats declared relation.target (relationPath index "target")
  let sources ← observationUris site formats staged (relationPath index "source_observations") relation.sourceObservations
  .ensure (sources.any fun source => staged.any fun entry => entry.2 == source)
    (invalidInput "Every proposed relation requires a staged source observation." (relationPath index "source_observations"))
  let reference : TypedReference :=
    ⟨relation.relation, target, relation.confidence, sources, relation.validFrom, relation.validTo, relation.note⟩
  .ensure (decide sources.Nodup) (invalidInput "source_observations must contain unique values" (relationPath index "source_observations"))
  let state ← relationSource site formats states sourceUri
  let document ← Client.ofExcept (appendReference formats state.document reference)
  .ret (states.put sourceUri { state with document := document })

/-- `_resolve_and_attach_relations` -/
def attachRelations (declared : List Declared) (staged : List (String × String)) :
    Nat → List ProposedRelation → DocumentStates members → EvidenceClient (DocumentStates members)
  | _, [], states => .ret states
  | index, relation :: rest, states => do
    let attached ← attachRelation site formats declared staged index relation states
    attachRelations declared staged (index + 1) rest attached

/-! Staging. -/

def AuthoredDocument.state (isTask : Bool) (expectedHash : Option String) (authored : AuthoredDocument members) :
    DocumentState members := ⟨isTask, authored.target, authored.document, authored.body, expectedHash⟩

/-- `states_by_uri` before the relations are attached. -/
def PreparedPayload.states (prepared : PreparedPayload members) : DocumentStates members :=
  (prepared.evidenceNote.document.uri, prepared.evidenceNote.state false none) ::
    (prepared.entities.map fun authored => (authored.document.uri, authored.state false none)) ++
    prepared.tasks.map fun task => (task.1.document.uri, task.1.state true task.2)

def PreparedPayload.declared (prepared : PreparedPayload members) : List Declared :=
  ((prepared.evidenceNote :: prepared.entities ++ prepared.tasks.map Prod.fst).map fun authored =>
      declare site authored.document.uri authored.document.id authored.document.title authored.document.aliases) ++
    prepared.claims.map fun claim => declare site claim.uri claim.id claim.id []

structure EvidenceStagingResult (members : Type) where
  contextId : String
  artifactRef : String
  baseRevision : String
  proposalId : String
  actor : Actor
  documents : List (DocumentState members)
  claims : List StagedClaim

/-- The staged documents: the evidence note, the entities and the tasks, each in the order of their paths. -/
def orderedStates (evidenceUri : String) (states : DocumentStates members) : List (DocumentState members) :=
  let byTarget := fun (one two : DocumentState members) => decide (one.target ≤ two.target)
  let others := (states.filter fun entry => entry.1 != evidenceUri).map Prod.snd
  (states.get evidenceUri).toList ++ (others.filter fun state => !state.isTask).mergeSort byTarget ++
    (others.filter fun state => state.isTask).mergeSort byTarget

/-- `stage_observations` behind the checks of its payload -/
def stageObservations (prepared : PreparedPayload members) : EvidenceClient (EvidenceStagingResult members) := do
  let states ← attachRelations site formats (prepared.declared site) prepared.observations 0 prepared.relations prepared.states
  let base ← Client.observe .plain fun world => site.revision world.events
  .ret
    { contextId := site.contextId
      artifactRef := prepared.artifactRef
      baseRevision := base
      proposalId := prepared.proposalId
      actor := prepared.actor
      documents := orderedStates prepared.evidenceNote.document.uri states
      claims := prepared.claims.mergeSort fun one two => decide (one.target ≤ two.target) }

/-! The proposal. -/

def stagedOperation (state : DocumentState members) : FileOperation :=
  match state.expectedHash with
  | none => .create state.target (formats.render state.document state.body)
  | some expectedHash => .update state.target (formats.render state.document state.body) expectedHash

def stagedPrecondition (state : DocumentState members) : TransactionCondition :=
  match state.expectedHash with
  | none => .pathAbsent state.target
  | some expectedHash => .pathHash state.target expectedHash

def buildEvidenceProposal (staging : EvidenceStagingResult members) : Except EvidenceError Proposal :=
  let proposal : Proposal :=
    { id := staging.proposalId
      baseRevision := staging.baseRevision
      actor := staging.actor
      sourceRefs := [staging.artifactRef]
      operations := staging.documents.map (stagedOperation formats) ++
        staging.claims.map fun claim => .create claim.target claim.content
      preconditions := .referenceExists staging.artifactRef :: staging.documents.map stagedPrecondition ++
        staging.claims.map fun claim => .pathAbsent claim.target
      postconditions := (staging.documents.map fun state => .pathExists state.target) ++
        (staging.claims.map fun claim => .pathExists claim.target) ++
        (staging.documents.map fun state => .referenceExists state.document.uri) ++
        staging.claims.map fun claim => .referenceExists claim.uri
      approvalRequired := true }
  if acceptsProposal site proposal then .ok proposal
  else .error (.input "EVIDENCE-PROPOSAL-INVALID" "The staging payload violates a typed contract." (some "$"))

/-- `apply` -/
def transactionApply (proposal : Proposal) (approved : Bool) : EvidenceClient Event := do
  let outcome ← Client.transact .plain fun world => (commit site proposal approved world).mapError .transaction
  Client.ofExcept (outcome.mapError .transaction)

def processEvidence (prepared : PreparedPayload members) (approved : Bool) : EvidenceClient Event := do
  let staging ← stageObservations site formats prepared
  let proposal ← Client.ofExcept (buildEvidenceProposal site formats staging)
  transactionApply site proposal approved

end
end Workctx.Evidence
