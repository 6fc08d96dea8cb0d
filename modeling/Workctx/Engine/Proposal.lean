import Workctx.Staging.Prepare

/-! What the engine is asked to do and what its analysis of it says: proposals, their compiled
form, diagnostics, and the collaborators the engine is built with. -/

namespace Workctx.Engine
open Workctx.Text Workctx.Json Workctx.Domain Workctx.Staging

inductive DiagnosticSeverity where
  | error
  | warning
  | advisory
deriving DecidableEq

structure TransactionDiagnostic where
  code : String
  severity : DiagnosticSeverity
  message : String
  path : Option String
  repairAction : Option String
deriving DecidableEq

inductive PayloadKind where
  | entity
  | task
  | claim
  | observation
  | artifactManifest
deriving DecidableEq

/-- A typed document as its JSON object, and the body below it. -/
structure DocumentPayload where
  kind : PayloadKind
  document : Value
  body : String

inductive TransactionOperation where
  | create (target : String) (payload : DocumentPayload)
  | update (target : String) (payload : DocumentPayload) (expectedHash : String)
  | move (source destination expectedHash : String)
  | deleteGenerated (target expectedHash : String)

inductive TransactionCondition where
  | pathExists (path : String)
  | pathAbsent (path : String)
  | pathHash (path contentHash : String)
  | referenceExists (reference : String)
deriving DecidableEq

namespace TransactionOperation

def paths : TransactionOperation → List String
  | .create target _ => [target]
  | .update target _ _ => [target]
  | .move source destination _ => [source, destination]
  | .deleteGenerated target _ => [target]

def valid (platform : Platform) : TransactionOperation → Bool
  | .create target _ => validateContextPath platform target
  | .update target _ expectedHash => validateContextPath platform target && isContentHash expectedHash
  | .move source destination expectedHash =>
    validateContextPath platform source && validateContextPath platform destination && isContentHash expectedHash
  | .deleteGenerated target expectedHash => validateGeneratedPath platform target && isContentHash expectedHash

end TransactionOperation

structure TransactionProposal (platform : Platform) where
  id : String
  contextId : String
  baseRevision : String
  actor : Actor
  sourceRefs : List String
  operations : List TransactionOperation
  preconditions : List TransactionCondition
  postconditions : List TransactionCondition
  approvalRequired : Bool
  idValid : isTransactionProposalId id = true
  contextValid : isContextId contextId = true
  actorValid : Actor.ofValue actor.data = some actor
  references : ∀ ref ∈ sourceRefs, platform.validateDurableReference ref = some ref
  distinctReferences : sourceRefs.Nodup
  localReferences : sourceRefs.all (requireLocalReferenceContext platform contextId) = true
  nonempty : operations ≠ []
  addressed : operations.all (TransactionOperation.valid platform) = true
  distinctPaths : ((operations.flatMap TransactionOperation.paths).map platform.pathKey).Nodup

inductive OperationKind where
  | create
  | update
  | move
  | deleteGenerated
deriving DecidableEq

structure OperationEffect where
  order : Nat
  op : OperationKind
  target : String
  destination : Option String
  preimageHash : Option String
  postimageHash : Option String
  handEdits : Bool
deriving DecidableEq

/-- `_CompiledProposal`; the files are listed in the order the operations address them. -/
structure CompiledProposal where
  writes : List StagedOperation
  effects : List OperationEffect
  auditOperations : List AuditOperation
  finalFiles : List (String × Option Bytes)
  acknowledgedPaths : List String

structure Analysis where
  diagnostics : List TransactionDiagnostic
  compiled : Option CompiledProposal

def isError (diagnostic : TransactionDiagnostic) : Bool := diagnostic.severity == .error

def Analysis.valid (analysis : Analysis) : Bool := !analysis.diagnostics.any isError

inductive Severity where
  | error
  | warning
  | advisory
deriving DecidableEq

structure ValidationIssue where
  severity : Severity
  code : String
  message : String
  path : Option String
  repairAction : Option String
deriving DecidableEq

structure ValidationReport where
  issues : List ValidationIssue

namespace ValidationReport

def errors (report : ValidationReport) : List ValidationIssue := report.issues.filter (·.severity == .error)

def warnings (report : ValidationReport) : List ValidationIssue := report.issues.filter (·.severity == .warning)

end ValidationReport

abbrev Contents := String → Option Bytes

def addressed (platform : Platform) : StagedOperation → Bool
  | .write target _ => validateContextPath platform target
  | .move source destination => validateContextPath platform source && validateContextPath platform destination
  | .delete target => validateGeneratedPath platform target

/-- The engine with the collaborators it is given. The analysis reads the canonical files, the
head of the ledger and the clock; the validator and the live conditions read the files. -/
structure TransactionEngine where
  workspace : Workspace
  contextId : String
  analyze : TransactionProposal workspace.platform → List String → String → Contents → String → Except Failure Analysis
  liveConditions : List TransactionCondition → Contents → Except Failure (List TransactionDiagnostic)
  validateWorkspace : Bool → List String → Contents → Except Failure ValidationReport
  /-- Every write of a compiled proposal comes from an operation of the proposal, or is the
  acknowledgment file. -/
  compiles : ∀ proposal requested time contents head analysis compiled,
    analyze proposal requested time contents head = .ok analysis → analysis.compiled = some compiled →
      compiled.writes.all (addressed workspace.platform) = true
  /-- The ledger lies in the context like a canonical file. -/
  ledgerRegular : workspace.Regular ledgerPath

/-! The workspace report of `apply`. -/

def severityOf : Severity → DiagnosticSeverity
  | .error => .error
  | .warning => .warning
  | .advisory => .advisory

def workspaceIssueDiagnostic (issue : ValidationIssue) : TransactionDiagnostic :=
  ⟨issue.code, severityOf issue.severity, issue.message, issue.path, issue.repairAction⟩

def strictValidationPaths (compiled : CompiledProposal) : List String :=
  compiled.finalFiles.filterMap fun entry => entry.2.map fun _ => entry.1

/-- `issue.path is not None and issue.path.casefold() in written` -/
def onWritten (platform : Platform) (written : List String) (issue : ValidationIssue) : Bool :=
  issue.path.any fun path => written.contains (platform.casefold path)

def ValidationIssue.key (issue : ValidationIssue) : String × Option String := (issue.code, issue.path)

def preexistingDiagnostic (count : Nat) : TransactionDiagnostic where
  code := "TXN-PREEXISTING-WORKSPACE-ERRORS"
  severity := .advisory
  message := toString count ++ " pre-existing validation error(s) remain on untouched workspace paths."
  path := none
  repairAction := some "Run `workctx context validate` and repair the reported workspace errors."

def postErrors (platform : Platform) (post : ValidationReport) (written : List String) : List ValidationIssue :=
  post.errors ++ (post.warnings.filter (onWritten platform written)).map fun issue => { issue with severity := .error }

/-- Whether an error of the later report vetoes the transaction. -/
def blocks (platform : Platform) (baseline : ValidationReport) (written : List String) (issue : ValidationIssue) : Bool :=
  onWritten platform written issue || !(baseline.errors.map ValidationIssue.key).contains issue.key

def baselineRelativeWorkspaceDiagnostics (platform : Platform) (baseline post : ValidationReport)
    (writtenPaths : List String) : List TransactionDiagnostic :=
  let written := writtenPaths.map platform.casefold
  let found := postErrors platform post written
  let blocking := found.filter (blocks platform baseline written)
  let preexisting := found.filter fun issue =>
    !blocking.contains issue && (baseline.errors.map ValidationIssue.key).contains issue.key
  blocking.map workspaceIssueDiagnostic ++
    if preexisting.isEmpty then [] else [preexistingDiagnostic preexisting.length]

end Workctx.Engine
