import Workctx.Migration.Legacy
import Workctx.Validation.ClaimRules

/-! The mapping preview: identifiers for the migrated documents, the hierarchy of their tasks, and the artifacts that are
kept of the legacy files. -/

namespace Workctx.Migration
open Workctx.Concurrent Workctx.Domain Workctx.Topics Workctx.Validation

structure MigrationTime where
  instant : Int
  year : Nat
  date : String
  inCalendar : earliest ≤ instant ∧ instant < latest

inductive MappingError where
  | sequenceExhausted (message : String)
  | missingKey (key : String)
  | invalidUri (message : String)
deriving DecidableEq

/-! The allocator. -/

/-- `_IdAllocator` -/
structure Allocator where
  used : List String
  sequences : Directory String Nat

/-- `f"{number:0{width}d}"` -/
def padded (width number : Nat) : String :=
  String.ofList (List.replicate (width - (toString number).length) '0') ++ toString number

namespace Allocator

def reserve (allocator : Allocator) (id : String) : Allocator := { allocator with used := id :: allocator.used }

/-- The next number of a sequence whose identifier is not used; so many are left. -/
def nextFree (used : List String) (candidate : Nat → String) : Nat → Nat → Option Nat
  | 0, _ => none
  | left + 1, sequence =>
    if used.contains (candidate (sequence + 1)) then nextFree used candidate left (sequence + 1) else some (sequence + 1)

/-- The loop of `_dated`, `_year_sequence` and `allocate_subtask` -/
def sequenced (allocator : Allocator) (key : String) (candidate : Nat → String) (limit : Nat) (exhausted : String) :
    Except MappingError (String × Allocator) :=
  let sequence := (allocator.sequences.get key).getD 0
  match nextFree allocator.used candidate (limit - sequence) sequence with
  | none => .error (.sequenceExhausted exhausted)
  | some next =>
    .ok (candidate next, { used := candidate next :: allocator.used, sequences := allocator.sequences.put key next })

def dated (time : MigrationTime) (allocator : Allocator) (tag slug : String) (width : Nat) :
    Except MappingError (String × Allocator) :=
  let key := tag ++ "-" ++ time.date ++ "-" ++ slug
  allocator.sequenced key (fun number => key ++ "-" ++ padded width number) (Nat.pow 10 width - 1) ("ID sequence exhausted for " ++ key)

def yearSequence (time : MigrationTime) (allocator : Allocator) (tag : String) (width : Nat) :
    Except MappingError (String × Allocator) :=
  let key := tag ++ "-" ++ toString time.year
  allocator.sequenced key (fun number => key ++ "-" ++ padded width number) (Nat.pow 10 width - 1) ("ID sequence exhausted for " ++ key)

/-- The identifiers `_slug_id` tries, by their sequence numbers. -/
def slugCandidate (base : String) (sequence : Nat) : String :=
  if sequence = 1 then base else base ++ "-" ++ toString sequence

/-- The loop of `_slug_id`; one of the next candidates is free, when there are as many as identifiers in use. -/
def slugSequence (used : List String) (base : String) : Nat → Nat → Nat
  | 0, sequence => sequence
  | left + 1, sequence =>
    if used.contains (slugCandidate base sequence) then slugSequence used base left (sequence + 1) else sequence

def slugId (allocator : Allocator) (tag slug : String) : String × Allocator :=
  let base := tag ++ "-" ++ slug
  let id := slugCandidate base (slugSequence allocator.used base allocator.used.length 1)
  (id, allocator.reserve id)

def allocate (time : MigrationTime) (allocator : Allocator) (entityType slug : String) : Except MappingError (String × Allocator) :=
  match entityType with
  | "evidence" => allocator.dated time "EVD" slug 2
  | "claim" => allocator.yearSequence time "CLM" 5
  | "observation" => do
    let (evidenceId, reserved) ← allocator.dated time "EVD" slug 2
    .ok (evidenceId ++ "#OBS-001", reserved.reserve (evidenceId ++ "#OBS-001"))
  | "decision" => allocator.yearSequence time "DEC" 3
  | "question" => allocator.yearSequence time "Q" 3
  | "risk" => allocator.yearSequence time "RISK" 3
  | "person" => .ok (allocator.slugId "PER" slug)
  | "system" => .ok (allocator.slugId "SYS" slug)
  | other => .ok (allocator.slugId ((genericPrefixes.lookup other).getD other.toUpper) slug)

def reserveOrAllocate (time : MigrationTime) (unicode : UnicodeData) (allocator : Allocator) (entityType : String)
    (oldId : Option String) (sourcePath : String) : Except MappingError (String × Allocator) :=
  match oldId.filter fun id => !allocator.used.contains id && validId entityType id with
  | some id => .ok (id, allocator.reserve id)
  | none => allocator.allocate time entityType (slugOf unicode (stem sourcePath))

def allocateParentTask (time : MigrationTime) (allocator : Allocator) (oldId : Option String) :
    Except MappingError (String × Allocator) :=
  match oldId.filter fun id => !allocator.used.contains id && validParentTaskId id with
  | some id => .ok (id, allocator.reserve id)
  | none => allocator.yearSequence time "TASK" 3

def isSubtaskOf (parentId id : String) : Bool :=
  (parentId ++ "-ST").toList.isPrefixOf id.toList && isDigits 2 (id.toList.drop (parentId.length + 3))

def allocateSubtask (allocator : Allocator) (parentId : String) (oldId : Option String) :
    Except MappingError (String × Allocator) :=
  match oldId.filter fun id => !allocator.used.contains id && isSubtaskOf parentId id with
  | some id => .ok (id, allocator.reserve id)
  | none => allocator.sequenced (parentId ++ "-ST") (fun number => parentId ++ "-ST" ++ padded 2 number) 99
      ("Subtask sequence exhausted for " ++ parentId)

end Allocator

/-! Planned documents. -/

structure PlannedDocument where
  source : LegacyDocument
  targetId : String
  targetUri : String
  targetPath : String
  taskParentId : Option String
  taskRootId : Option String
  provenanceEvidenceId : Option String

/-- `ArtifactPlan`, without the place in the inbox that its file is copied to. -/
structure ArtifactPlan where
  sourcePath : String
  reference : String

/-- `MigrationPlan`, without the records that are reported. -/
structure MigrationPlan where
  contextId : String
  documents : List PlannedDocument
  artifacts : List ArtifactPlan

def plannedDocument (contextId : String) (document : LegacyDocument) (targetId : String) : Except MappingError PlannedDocument :=
  if !validUri ⟨contextId, document.entityType, targetId⟩ then .error (.invalidUri "Entity ID is required and cannot be a path traversal segment")
  else
    match targetPath document.entityType targetId with
    | none => .error (.missingKey document.entityType)
    | some path => .ok
        { source := document
          targetId
          targetUri := uriText ⟨contextId, document.entityType, targetId⟩
          targetPath := path
          taskParentId := none
          taskRootId := none
          provenanceEvidenceId := none }

section
variable (unicode : UnicodeData)

/-- `sorted(..., key=lambda item: path(item).casefold())` -/
def sortByPath {α : Type} (path : α → String) (items : List α) : List α :=
  items.mergeSort fun one two => decide (unicode.casefold (path one) ≤ unicode.casefold (path two))

/-! Tasks. -/

/-- `_normalize_relative`; none for a path out of the root. -/
def normalizeRelative (parts : List (List Char)) : Option (List (List Char)) :=
  parts.foldlM (fun kept part => if part == ['.', '.'] then (if kept.isEmpty then none else some kept.dropLast) else some (kept ++ [part])) []

def joinParts (parts : List (List Char)) : String := String.ofList (['/'].intercalate parts)

/-- A path relative to the directory of a document; empty where it leads out of the root. -/
def resolveBeside (relativePath authored : String) : String :=
  let portable := String.ofList (authored.toList.map fun c => if c == '\\' then '/' else c)
  let parts := if portable.toList.head? == some '/' then pathParts portable
    else (pathParts relativePath).dropLast ++ pathParts portable
  joinParts ((normalizeRelative parts).getD [])

def resolveTaskParent (tasks : List LegacyDocument) (task : LegacyDocument) (authored : Option Yaml) : Option String :=
  match authored.bind Yaml.text with
  | none => none
  | some value =>
    let value := String.ofList (strip value.toList)
    if value == "" then none
    else
      match sortByPath unicode LegacyDocument.relativePath (tasks.filter fun other => other.oldId == some value) with
      | first :: _ => some first.relativePath
      | [] =>
        let candidate := resolveBeside task.relativePath value
        if tasks.any fun other => other.relativePath == candidate then some candidate else none

/-- `task.frontmatter.get("parent_task", task.frontmatter.get("parent"))` -/
def authoredParent (task : LegacyDocument) : Option Yaml :=
  match task.frontmatter.get "parent_task" with
  | some authored => some authored
  | none => task.frontmatter.get "parent"

def leastPath (paths : List String) : String := (sortByPath unicode id paths).headD ""

/-- `_root_task_path`; the chain has no path twice, so that it ends within as many steps as there are tasks. -/
def rootTaskPath (parents : Directory String (Option String)) : Nat → List String → String → String
  | 0, _, current => current
  | steps + 1, chain, current =>
    if chain.contains current then leastPath unicode (chain.drop (chain.idxOf current))
    else
      match (parents.get current).join with
      | none => current
      | some parent => rootTaskPath parents steps (chain ++ [current]) parent

/-- `root_ids` -/
def allocateRoots (time : MigrationTime) (tasks : List LegacyDocument) :
    List String → Allocator → Except MappingError (Directory String String × Allocator)
  | [], allocator => .ok ([], allocator)
  | path :: rest, allocator => do
    let source ← ((tasks.find? fun task => task.relativePath == path).elim (.error (.missingKey path)) .ok :
      Except MappingError LegacyDocument)
    let (id, reserved) ← allocator.allocateParentTask time source.oldId
    let (ids, later) ← allocateRoots time tasks rest reserved
    .ok ((path, id) :: ids, later)

def taskTarget (root : String) (rootId : String) (task : LegacyDocument) (allocator : Allocator) :
    Except MappingError (String × Allocator) :=
  if task.relativePath = root then .ok (rootId, allocator) else allocator.allocateSubtask rootId task.oldId

/-- The tasks in the order of their paths, with their identifiers. -/
def planTaskDocuments (contextId : String) (roots : LegacyDocument → String) (rootIds : Directory String String) :
    List LegacyDocument → Allocator → Except MappingError (List PlannedDocument × Allocator)
  | [], allocator => .ok ([], allocator)
  | task :: rest, allocator => do
    let rootId ← ((rootIds.get (roots task)).elim (.error (.missingKey (roots task))) .ok : Except MappingError String)
    let (targetId, reserved) ← taskTarget (roots task) rootId task allocator
    let base ← plannedDocument contextId task targetId
    let (planned, later) ← planTaskDocuments contextId roots rootIds rest reserved
    .ok ({ base with
      taskParentId := if task.relativePath = roots task then none else some rootId
      taskRootId := some rootId } :: planned, later)

def planTasks (time : MigrationTime) (contextId : String) (tasks : List LegacyDocument) (allocator : Allocator) :
    Except MappingError (List PlannedDocument × Allocator) := do
  let parents := tasks.map fun task => (task.relativePath, resolveTaskParent unicode tasks task (authoredParent task))
  let roots := fun task : LegacyDocument => rootTaskPath unicode parents (tasks.length + 1) [] task.relativePath
  let (rootIds, reserved) ← allocateRoots time tasks (sortByPath unicode id (tasks.map roots).eraseDups) allocator
  planTaskDocuments contextId roots rootIds (sortByPath unicode LegacyDocument.relativePath tasks) reserved

/-! The preview. -/

def mutableKeys : List String :=
  ["architecture", "blockers", "deadline", "dependencies", "due", "due_at", "next_action", "owner", "ownership", "status",
    "waiting_on"]

def planDocuments (time : MigrationTime) (contextId : String) :
    List LegacyDocument → Allocator → Except MappingError (List PlannedDocument × Allocator)
  | [], allocator => .ok ([], allocator)
  | document :: rest, allocator => do
    let (targetId, reserved) ← allocator.reserveOrAllocate time unicode document.entityType document.oldId document.relativePath
    let planned ← plannedDocument contextId document targetId
    let (others, later) ← planDocuments time contextId rest reserved
    .ok (planned :: others, later)

/-- A provenance evidence is made for what has mutable state, unless it has its own evidence. -/
def needsProvenance (document : LegacyDocument) : Bool :=
  !(["evidence", "observation"].contains document.entityType) &&
    (document.entityType == "claim" || mutableKeys.any fun key => (document.frontmatter.get key).isSome)

def planProvenance (time : MigrationTime) :
    List PlannedDocument → Allocator → Except MappingError (List PlannedDocument × Allocator)
  | [], allocator => .ok ([], allocator)
  | planned :: rest, allocator =>
    if needsProvenance planned.source then do
      let (evidenceId, reserved) ← allocator.allocate time "evidence" (slugOf unicode (stem planned.source.relativePath))
      let (others, later) ← planProvenance time rest reserved
      .ok ({ planned with provenanceEvidenceId := some evidenceId } :: others, later)
    else do
      let (others, later) ← planProvenance time rest allocator
      .ok (planned :: others, later)

def artifactPlan (file : LegacyFile) : ArtifactPlan :=
  let digest := if "sha256:".toList.isPrefixOf file.contentHash.toList then file.contentHash.toList.drop 7 else file.contentHash.toList
  ⟨file.relativePath, "artifact://sha256/" ++ String.ofList digest⟩

def preserves (analysis : InventoryAnalysis) (file : LegacyFile) : Bool :=
  !(file.containsSecret || file.unsafeContent) &&
    (analysis.documents.any (fun document =>
        document.relativePath == file.relativePath && !document.containsSecret && !document.unsafeContent) ||
      (file.isCanonical && file.entityType == some "artifact"))

def InventoryAnalysis.safeDocuments (analysis : InventoryAnalysis) : List LegacyDocument :=
  analysis.documents.filter fun document => !document.containsSecret && !document.unsafeContent

def buildMappingPreview (analysis : InventoryAnalysis) (contextId : String) (time : MigrationTime) :
    Except MappingError MigrationPlan := do
  let nonTasks := analysis.safeDocuments.filter fun document => document.entityType != "task"
  let tasks := analysis.safeDocuments.filter fun document => document.entityType == "task"
  let (planned, allocator) ← planDocuments unicode time contextId nonTasks ⟨[], []⟩
  let (plannedTasks, reserved) ← planTasks unicode time contextId tasks allocator
  let (documents, _) ← planProvenance unicode time
    (sortByPath unicode (fun planned => planned.source.relativePath) (planned ++ plannedTasks)) reserved
  .ok
    { contextId
      documents
      artifacts := sortByPath unicode ArtifactPlan.sourcePath ((analysis.files.filter (preserves analysis)).map artifactPlan) }

end
end Workctx.Migration
