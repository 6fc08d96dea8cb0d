import Workctx.Secrets.Acknowledgments

/-! The analysis of a proposal: its compilation, the acknowledgments that are asked for with it, and its secrets. -/

namespace Workctx.Secrets
open Workctx.Text Workctx.Concurrent Workctx.Domain Workctx.Staging Workctx.Engine Workctx.Owners

/-- What the engine compiles and analyzes a proposal with. -/
structure Analyzer where
  compiler : Compiler
  scan : SecretScan compiler.platform
  /-- What is asked of a proposal before it is compiled -/
  admission : TransactionProposal compiler.platform → Files → List TransactionDiagnostic
  /-- `_projection_matches_canonical_identities` -/
  consistent : Files → Bool
  /-- `_document_has_hand_edits` -/
  handEdits : String → DocumentPayload → Bytes → Bool
  /-- Whether the file of the acknowledgments can be resolved and read -/
  readable : Files → Bool
  conditions : TransactionProposal compiler.platform → Files → CompiledProposal → List TransactionDiagnostic

namespace Analyzer
variable (analyzer : Analyzer)

/-! The compilation. -/

/-- The write of an operation; none where its document is refused. -/
def stagedOperation : TransactionOperation → Option StagedOperation
  | .create target payload => (analyzer.compiler.prepareDocument target payload).map (.write target)
  | .update target payload _ => (analyzer.compiler.prepareDocument target payload).map (.write target)
  | .move source destination _ => some (.move source destination)
  | .deleteGenerated target _ => some (.delete target)

def operationEffect (files : Files) (order : Nat) : TransactionOperation → Option OperationEffect
  | .create target payload => (analyzer.compiler.prepareDocument target payload).map fun content =>
    ⟨order, .create, target, none, none, some (analyzer.compiler.platform.contentHash content), false⟩
  | .update target payload expectedHash => do
    let content ← analyzer.compiler.prepareDocument target payload
    let current ← files.get target
    some ⟨order, .update, target, none, some expectedHash, some (analyzer.compiler.platform.contentHash content),
      analyzer.handEdits target payload current⟩
  | .move source destination expectedHash =>
    some ⟨order, .move, source, some destination, some expectedHash, some expectedHash, false⟩
  | .deleteGenerated target expectedHash => some ⟨order, .deleteGenerated, target, none, some expectedHash, none, false⟩

def auditOperation : TransactionOperation → Option AuditOperation
  | .create target payload => (analyzer.compiler.prepareDocument target payload).map fun content =>
    .create target (analyzer.compiler.platform.contentHash content)
  | .update target payload expectedHash => (analyzer.compiler.prepareDocument target payload).map fun content =>
    .update target expectedHash (analyzer.compiler.platform.contentHash content)
  | .move source destination expectedHash => some (.move source destination expectedHash)
  | .deleteGenerated target expectedHash => some (.deleteGenerated target expectedHash)

/-- `_compile`; none for an exception. -/
def compile (documents : List ParsedDocument) (files : Files) (operations : List TransactionOperation) :
    Option (CompiledProposal × List TransactionDiagnostic) := do
  let (final, diagnostics) ← analyzer.compiler.compile documents files operations
  let writes ← operations.mapM analyzer.stagedOperation
  let effects ← operations.zipIdx.mapM fun entry => analyzer.operationEffect files entry.2 entry.1
  let audit ← operations.mapM analyzer.auditOperation
  some (⟨writes, effects, audit, final, []⟩, diagnostics)

/-! The analysis. -/

def projectionNotReady : TransactionDiagnostic :=
  ⟨"TXN-PROJECTION-NOT-READY", .error, "The projection does not match current canonical identities.", none,
    some "Run `workctx index rebuild` before projection-backed reads."⟩

def operationInvalid : TransactionDiagnostic :=
  ⟨"TXN-OPERATION-INVALID", .error, "An operation could not be compiled safely.", none,
    some "Review operation paths, hashes, payload types, and parents."⟩

variable (documents : List ParsedDocument) (files : Files) (proposal : TransactionProposal analyzer.compiler.platform)
  (createdAt time : String) (requested : List String)

def acknowledged (compiled : CompiledProposal) : CompiledProposal × List TransactionDiagnostic :=
  compileSecretAcknowledgments analyzer.scan time (if analyzer.readable files then some (files.get acknowledgmentsPath) else none)
    compiled requested

def analyze : Analysis :=
  let admitted := analyzer.admission proposal files
  if admitted.any isError then ⟨admitted, none⟩
  else if !analyzer.consistent files then ⟨admitted ++ [projectionNotReady], none⟩
  else
    match analyzer.compile documents files proposal.operations with
    | none => ⟨admitted ++ [operationInvalid], none⟩
    | some (compiled, found) =>
      let (compiled, invalid) := analyzer.acknowledged files time requested compiled
      ⟨admitted ++ found ++ invalid ++
        secretDiagnostics analyzer.scan.scanner createdAt proposal compiled.acknowledgedPaths ++
        analyzer.conditions proposal files compiled, some compiled⟩

end Analyzer

/-! What a valid analysis has passed. -/

section
variable {analyzer : Analyzer} {documents : List ParsedDocument} {files : Files} {proposal : TransactionProposal analyzer.compiler.platform}
  {createdAt time : String} {requested : List String}

theorem valid_iff {analysis : Analysis} : analysis.valid = true ↔ ∀ diagnostic ∈ analysis.diagnostics, isError diagnostic = false := by
  rw [Analysis.valid, Bool.not_eq_true', List.any_eq_false]
  simp only [Bool.not_eq_true]

/-- A valid analysis: the compiled proposal with its acknowledgments, none of them refused, and no secret beside them. -/
structure Passed (analyzer : Analyzer) (documents : List ParsedDocument) (files : Files)
    (proposal : TransactionProposal analyzer.compiler.platform) (createdAt time : String) (requested : List String)
    (compiled : CompiledProposal) (found : List TransactionDiagnostic) : Prop where
  compiles : analyzer.compile documents files proposal.operations = some (compiled, found)
  accepted : (analyzer.acknowledged files time requested compiled).2 = []
  clean : secretDiagnostics analyzer.scan.scanner createdAt proposal
    (analyzer.acknowledged files time requested compiled).1.acknowledgedPaths = []
  result : (analyzer.analyze documents files proposal createdAt time requested).compiled =
    some (analyzer.acknowledged files time requested compiled).1

theorem acknowledged_errors (compiled : CompiledProposal) :
    ∀ diagnostic ∈ (analyzer.acknowledged files time requested compiled).2, isError diagnostic = true := by
  have refusals : ∀ (requested seen : List String) (index : Nat), ∀ diagnostic ∈
      (analyzer.scan.eligible compiled.finalFiles index seen requested).1, isError diagnostic = true := by
    intro requested
    induction requested with
    | nil => simp [SecretScan.eligible]
    | cons candidate rest ih =>
      intro seen index diagnostic member
      rw [SecretScan.eligible] at member
      split at member
      · rcases List.mem_cons.mp member with same | later
        · rw [same]
          rfl
        · exact ih _ _ diagnostic later
      · dsimp only at member
        split at member
        · rcases List.mem_cons.mp member with same | later
          · rw [same]
            rfl
          · exact ih _ _ diagnostic later
        · exact ih _ _ diagnostic member
  intro diagnostic member
  unfold Analyzer.acknowledged compileSecretAcknowledgments at member
  split at member
  · rw [List.mem_singleton.mp member]
    rfl
  split at member
  · cases member
  split at member
  · next first others accepted same =>
    apply refusals requested [] 0
    rw [same]
    exact member
  · split at member
    · rw [List.mem_singleton.mp member]
      rfl
    split at member
    · rw [List.mem_singleton.mp member]
      rfl
    split at member
    · rw [List.mem_singleton.mp member]
      rfl
    · cases member

theorem eq_nil_of_errors {diagnostics : List TransactionDiagnostic} (errors : ∀ diagnostic ∈ diagnostics, isError diagnostic = true)
    (none : ∀ diagnostic ∈ diagnostics, isError diagnostic = false) : diagnostics = [] := by
  rw [List.eq_nil_iff_forall_not_mem]
  intro diagnostic member
  exact absurd (none diagnostic member) (by simp [errors diagnostic member])

theorem analyze_passed (valid : (analyzer.analyze documents files proposal createdAt time requested).valid = true) :
    ∃ compiled found, Passed analyzer documents files proposal createdAt time requested compiled found := by
  have none := valid_iff.mp valid
  rw [Analyzer.analyze] at none
  dsimp only at none
  split at none
  · next refused =>
    obtain ⟨diagnostic, member, error⟩ := List.any_eq_true.mp refused
    exact absurd (none diagnostic member) (by simp [error])
  · next admitted =>
    split at none
    · exact absurd (none Analyzer.projectionNotReady (by simp)) (by decide)
    · next consistent =>
      split at none
      · exact absurd (none Analyzer.operationInvalid (by simp)) (by decide)
      · next compiled found compiles =>
        refine ⟨compiled, found, compiles, ?_, ?_, ?_⟩
        · exact eq_nil_of_errors (acknowledged_errors compiled) fun diagnostic member => none diagnostic (by simp [member])
        · exact eq_nil_of_errors secretDiagnostics_errors fun diagnostic member => none diagnostic (by simp [member])
        · rw [Analyzer.analyze]
          dsimp only
          rw [if_neg admitted, if_neg consistent, compiles]

end
end Workctx.Secrets
