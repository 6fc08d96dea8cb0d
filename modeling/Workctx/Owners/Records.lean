import Workctx.Migration.Legacy

/-! The records of canonical files, and the identities that each file owns. -/

namespace Workctx.Owners
open Workctx.Text Workctx.Concurrent Workctx.Domain Workctx.Migration

/-! Paths. -/

def parts (path : String) : List (List Char) := path.toList.splitOn '/'

def nameOf (path : String) : List Char := (parts path).getLastD []

/-- `PurePosixPath(path).suffix` -/
def suffixOf (path : String) : List Char :=
  let name := nameOf path
  let tail := (name.reverse.takeWhile (· != '.')).reverse
  if name.contains '.' && !tail.isEmpty && decide (tail.length + 1 < name.length) then '.' :: tail else []

def lowered (text : List Char) : List Char := text.map Char.toLower

/-- The canonical zones of a workspace that hold Markdown documents. -/
inductive Zone where
  | knowledge
  | work
  | outbox
deriving DecidableEq

def zoneOf (path : String) : Option Zone :=
  match parts path with
  | zone :: _ :: _ =>
    if zone = "02_knowledge".toList then some .knowledge
    else if zone = "03_work".toList then some .work
    else if zone = "05_outbox".toList then some .outbox
    else none
  | _ => none

def isNarrativePath (path : String) : Bool := (zoneOf path).isSome && lowered (suffixOf path) == ".md".toList

def isReadme (path : String) : Bool := lowered (nameOf path) == "readme.md".toList

def isCanonicalPath (path : String) : Bool := isNarrativePath path && !isReadme path

def isIndexedPath (path : String) : Bool :=
  isCanonicalPath path && (zoneOf path == some .knowledge || zoneOf path == some .work)

/-- The files of the outbox that `rglob("*.md")` finds, but for the readme files. -/
def isScannedOutboxPath (path : String) : Bool :=
  zoneOf path == some .outbox && ".md".toList.isSuffixOf (nameOf path) && !isReadme path

def isManifestPath (path : String) : Bool :=
  (parts path).dropLast == ["00_inbox".toList, "manifests".toList] &&
    [".json".toList, ".yaml".toList, ".yml".toList].contains (lowered (suffixOf path))

/-! Records. -/

/-- `EntityFrontmatter`, but for its references -/
structure EntityHead where
  id : String
  entityType : String
  uri : String
  title : String
  aliases : List String
  status : Option String
  confidence : Option String
  tags : List String
  topics : List String
  createdAt : AwareDatetime
  updatedAt : AwareDatetime

/-- `TypedReference`: its relation, the durable reference it is to, and the observations it is made from. -/
structure Reference where
  relation : String
  target : String
  confidence : Option String
  sourceObservations : List String
  validFrom : Option AwareDatetime
  validTo : Option AwareDatetime
  note : Option String
deriving DecidableEq

structure Observation where
  id : String
  kind : String
  statement : String
  confidence : String
  sourceRef : String
  locatorType : String
  locator : Yaml
  observedAt : Option AwareDatetime
  validFrom : Option AwareDatetime
  validTo : Option AwareDatetime
  derivedFrom : List String
  related : List Reference

/-- `Claim`: what it is about, what it supersedes and is superseded by, and the observations it is made from. -/
structure ClaimHead where
  id : String
  subject : String
  predicate : String
  object : Yaml
  observedAt : AwareDatetime
  validFrom : Option AwareDatetime
  validTo : Option AwareDatetime
  status : String
  supersedes : Option String
  supersededBy : Option String
  confidence : String
  sourceObservations : List String

/-- What `Task` has beside an entity: its place in the hierarchy, and the persons, tasks and observations it names. -/
structure TaskHead where
  isSubtask : Bool
  parentTask : Option String
  rootTask : String
  priority : String
  status : String
  owner : Option String
  requester : Option String
  waitingOn : List String
  dueAt : Option AwareDatetime
  nextAction : String
  dependencies : List String
  blockers : List String
  sourceObservations : List String

/-! The lists of which the values are unique. -/

def EntityHead.lists (head : EntityHead) : List (List String) := [head.aliases, head.tags, head.topics]

def TaskHead.lists (task : TaskHead) : List (List String) := [task.waitingOn, task.dependencies, task.blockers, task.sourceObservations]

def Observation.lists (observation : Observation) : List (List String) :=
  observation.derivedFrom :: observation.related.map Reference.sourceObservations

abbrev Frontmatter := Directory String Yaml

/-- The readers of canonical files: YAML, and the validators of the record models. -/
structure Models where
  /-- `WorkctxUri.parse` -/
  parseUri : String → Option WorkctxUri
  parse_uriText : ∀ uri, validUri uri = true → parseUri (uriText uri) = some uri
  /-- `parse_frontmatter` of UTF-8 text -/
  frontmatter : Bytes → Option Frontmatter
  /-- `EntityFrontmatter.model_validate`, and `Task.model_validate` -/
  entity : Frontmatter → Option EntityHead
  task : Frontmatter → Option EntityHead
  /-- The URI is in its canonical spelling, and matches the type and the identifier. -/
  entity_uri : ∀ raw head, entity raw = some head → ∃ contextId,
    validUri ⟨contextId, head.entityType, head.id⟩ = true ∧ head.uri = uriText ⟨contextId, head.entityType, head.id⟩
  task_uri : ∀ raw head, task raw = some head → ∃ contextId,
    validUri ⟨contextId, "task", head.id⟩ = true ∧ head.uri = uriText ⟨contextId, "task", head.id⟩
  /-- `Claim.model_validate`, and `Observation.model_validate` -/
  claim : Frontmatter → Option ClaimHead
  claim_id : ∀ raw accepted, claim raw = some accepted → isClaimId accepted.id = true
  observation : Yaml → Option Observation
  standaloneObservation : Frontmatter → Option Observation
  observation_id : ∀ value accepted, observation value = some accepted → isObservationId accepted.id = true
  standaloneObservation_id : ∀ raw accepted, standaloneObservation raw = some accepted → isObservationId accepted.id = true
  /-- What else `Task.model_validate` says of a task -/
  taskHead : Frontmatter → TaskHead
  task_place : ∀ raw head, task raw = some head → ((taskHead raw).isSubtask = false ∧ (taskHead raw).rootTask = head.id) ∨
    ((taskHead raw).isSubtask = true ∧ (taskHead raw).parentTask = some (taskHead raw).rootTask ∧ (taskHead raw).rootTask ≠ head.id)
  /-- `TypedReference.model_validate` -/
  typedReference : Yaml → Option Reference
  entity_lists : ∀ raw head, entity raw = some head → ∀ values ∈ head.lists, values.Nodup
  task_lists : ∀ raw head, task raw = some head → ∀ values ∈ head.lists ++ (taskHead raw).lists, values.Nodup
  claim_lists : ∀ raw accepted, claim raw = some accepted → accepted.sourceObservations.Nodup
  observation_lists : ∀ value accepted, observation value = some accepted → ∀ values ∈ accepted.lists, values.Nodup
  standaloneObservation_lists : ∀ raw accepted, standaloneObservation raw = some accepted → ∀ values ∈ accepted.lists, values.Nodup
  typedReference_lists : ∀ value reference, typedReference value = some reference → reference.sourceObservations.Nodup
  /-- What `parse_durable_reference` accepts; it accepts a reference in the spelling of its `str` only. -/
  durable : String → Bool
  /-- The context and the identifier of an artifact manifest -/
  artifact : String → Bytes → Option (String × String)
  /-- Whether a text can be encoded as UTF-8; one with a lone surrogate, as a YAML escape gives it, cannot. -/
  encodes : String → Bool
  encodes_ascii : ∀ text : String, (∀ c ∈ text.toList, c.toNat < 128) → encodes text = true
  /-- `_json_text`; none where Python refuses to print an integer. -/
  jsonText : Yaml → Option String

structure Record where
  entity : Option EntityHead
  task : Option TaskHead
  claim : Option ClaimHead
  observations : List Observation

/-- `str(WorkctxUri(...))`; none where it raises. -/
def recordUri (contextId entityType id : String) : Option String :=
  if validUri ⟨contextId, entityType, id⟩ then some (uriText ⟨contextId, entityType, id⟩) else none

section
variable (models : Models)

def embeddedObservations (head : EntityHead) (raw : Frontmatter) : Option (List Observation) :=
  match (raw.get "observations").getD (.list []) with
  | .list items => items.mapM fun item => (models.observation item).filter fun observation =>
      head.entityType != "evidence" || (head.id ++ "#OBS-").toList.isPrefixOf observation.id.toList
  | _ => none

def readHead (entityType : Yaml) (raw : Frontmatter) : Option EntityHead :=
  if entityType.text = some "task" then models.task raw else models.entity raw

/-- The dispatch of `_markdown_identities` and `_parse_document`; none where a model rejects the document. -/
def readRecord (raw : Frontmatter) : Option Record :=
  match ((raw.get "entity_type").getD .null : Yaml) with
  | .null =>
    match (raw.get "id").bind Yaml.text with
    | none => none
    | some id =>
      if "CLM-".toList.isPrefixOf id.toList then (models.claim raw).map fun claim => ⟨none, none, some claim, []⟩
      else if id.toList.tails.any fun rest => "#OBS-".toList.isPrefixOf rest then
        (models.standaloneObservation raw).map fun observation => ⟨none, none, none, [observation]⟩
      else none
  | value => do
    let head ← readHead models value raw
    let observations ← embeddedObservations models head raw
    some ⟨some head, if value.text = some "task" then some (models.taskHead raw) else none, none, observations⟩

/-- The identifiers of the records of a document, with their URIs. -/
def Record.identities (contextId : String) (record : Record) : Option (List (String × String)) := do
  let claims ← record.claim.toList.mapM fun claim => (recordUri contextId "claim" claim.id).map fun uri => (claim.id, uri)
  let observations ← record.observations.mapM fun observation =>
    (recordUri contextId "observation" observation.id).map fun uri => (observation.id, uri)
  some ((record.entity.toList.map fun head => (head.id, head.uri)) ++ claims ++ observations)

def readDocument (content : Bytes) : Option Record := (models.frontmatter content).bind (readRecord models)

/-- The identities of `_markdown_identities` -/
def documentIdentities (contextId : String) (content : Bytes) : Option (List (String × String)) :=
  ((readDocument models content).bind fun record => record.identities contextId).filter fun identities =>
    decide (identities.map Prod.snd).Nodup

def markdownIdentities (contextId : String) (content : Bytes) : Option (List String) :=
  (documentIdentities models contextId content).map fun identities => identities.map Prod.snd

def manifestIdentity (contextId path : String) (content : Bytes) : Option (String × String) :=
  ((models.artifact path content).filter fun manifest => manifest.1 == contextId).bind fun manifest =>
    (recordUri contextId "artifact" manifest.2).map fun uri => (manifest.2, uri)

def identitiesOf (contextId path : String) (content : Bytes) : List (String × String) :=
  if isCanonicalPath path then (documentIdentities models contextId content).getD []
  else if isManifestPath path then (manifestIdentity models contextId path content).toList
  else []

end
end Workctx.Owners
