import Workctx.Owners.Uniqueness
import Workctx.Secrets.Analysis
import Workctx.Secrets.Report

/-! The secret gate: what a proposal with a secret needs to pass, and what becomes of the entries of the record. -/

namespace Workctx.Secrets
open Workctx.Text Workctx.Concurrent Workctx.Domain Workctx.Staging Workctx.Engine Workctx.Owners List

section
variable (analyzer : Analyzer)

def Covered (compiled : CompiledProposal) (path : String) (content : Bytes) : Prop :=
  ∃ record, Directory.get compiled.finalFiles acknowledgmentsPath = some (some (analyzer.scan.dumpSecretScanAcknowledgments record)) ∧
    ∃ entry ∈ record.acknowledgments, entry.path = path ∧ entry.contentHash = analyzer.compiler.platform.contentHash content

/-- A payload of the proposal has a secret-looking location, and no entry is for the bytes it is staged with. -/
def Uncovered (proposal : TransactionProposal analyzer.compiler.platform) (analysis : Analysis) : Prop :=
  ∃ (index : Nat) (operation : TransactionOperation) (path : String) (payload : DocumentPayload),
    proposal.operations[index]? = some operation ∧ payloadOf operation = some (path, payload) ∧
      analyzer.scan.scanner.secretLocations (payloadPlace index) (payloadData payload) ≠ [] ∧
      ∀ compiled content, analysis.compiled = some compiled → analyzer.compiler.prepareDocument path payload = some content →
        ¬Covered analyzer compiled path content

structure RecordKept (files : Files) (requested : List String) (compiled : CompiledProposal)
    (existing : List (SecretScanAcknowledgment analyzer.compiler.platform))
    (record : SecretScanAcknowledgments analyzer.compiler.platform) : Prop where
  before : analyzer.scan.existing (files.get acknowledgmentsPath) = some existing
  after : Directory.get compiled.finalFiles acknowledgmentsPath = some (some (analyzer.scan.dumpSecretScanAcknowledgments record))
  kept : ∀ old ∈ existing, (∀ path ∈ requested, analyzer.compiler.platform.casefold path ≠ old.key) → old ∈ record.acknowledgments
  added : ∀ path ∈ requested, ∃ entry ∈ record.acknowledgments, entry.path = path ∧
    (∃ content, Directory.get compiled.finalFiles path = some (some content) ∧
      entry.contentHash = analyzer.compiler.platform.contentHash content) ∧
    ∀ old ∈ existing, old.key = analyzer.compiler.platform.casefold path → entry.note = old.note
  only : ∀ entry ∈ record.acknowledgments, entry ∈ existing ∨ entry.path ∈ requested

variable {analyzer} {documents : List ParsedDocument} {files : Files} {proposal : TransactionProposal analyzer.compiler.platform}
  {createdAt time : String} {requested : List String} {compiled : CompiledProposal} {found : List TransactionDiagnostic}

/-! The compiled files. -/

section
variable (made : analyzer.compile documents files proposal.operations = some (compiled, found))
include made

theorem compile_made :
    compiled.finalFiles.map Prod.fst = proposal.operations.flatMap TransactionOperation.paths ∧
      (∀ path content, (path, some content) ∈ compiled.finalFiles ↔ Written analyzer.compiler files proposal.operations path content) ∧
      compiled.acknowledgedPaths = [] ∧ proposal.operations.mapM analyzer.stagedOperation = some compiled.writes := by
  obtain ⟨⟨final, diagnostics⟩, first, more⟩ := Option.bind_eq_some_iff.mp made
  obtain ⟨writes, staged, more⟩ := Option.bind_eq_some_iff.mp more
  obtain ⟨effects, _, more⟩ := Option.bind_eq_some_iff.mp more
  obtain ⟨audit, _, more⟩ := Option.bind_eq_some_iff.mp more
  obtain ⟨rfl, _⟩ := Prod.mk.inj (Option.some.inj more)
  obtain ⟨⟨files', found', locations⟩, operations, later⟩ := Option.bind_eq_some_iff.mp first
  obtain ⟨manifests, _, later⟩ := Option.bind_eq_some_iff.mp later
  obtain ⟨overlay, _, later⟩ := Option.bind_eq_some_iff.mp later
  obtain ⟨rfl, _⟩ := Prod.mk.inj (Option.some.inj later)
  obtain ⟨paths, written⟩ := compileOperations_made operations
  exact ⟨paths, written, rfl, staged⟩

theorem paths_nodup :
    (compiled.finalFiles.map Prod.fst).Nodup := by
  rw [(compile_made made).1]
  exact List.Nodup.of_map _ proposal.distinctPaths

theorem payload_staged
    {operation : TransactionOperation} (member : operation ∈ proposal.operations) (path : String) (payload : DocumentPayload)
    (staged : payloadOf operation = some (path, payload)) :
    ∃ content, analyzer.compiler.prepareDocument path payload = some content ∧
      Directory.get compiled.finalFiles path = some (some content) := by
  obtain ⟨_, written, _, writes⟩ := compile_made made
  obtain ⟨write, _, prepared⟩ := (mapM_some_mem writes).2 operation member
  have rendered : ∃ content, analyzer.compiler.prepareDocument path payload = some content ∧
      Writes analyzer.compiler files path content operation := by
    cases operation with
    | create target document =>
      cases staged
      obtain ⟨content, same, _⟩ := Option.map_eq_some_iff.mp prepared
      exact ⟨content, same, rfl, same⟩
    | update target document expectedHash =>
      cases staged
      obtain ⟨content, same, _⟩ := Option.map_eq_some_iff.mp prepared
      exact ⟨content, same, rfl, same⟩
    | move source destination expectedHash => cases staged
    | deleteGenerated target expectedHash => cases staged
  obtain ⟨content, same, writes⟩ := rendered
  exact ⟨content, same, Directory.get_of_mem (paths_nodup made) ((written path content).mpr ⟨operation, member, writes⟩)⟩

end

/-! The record. -/

theorem get_append_of_get {final more : FinalFiles} {path : String} {content : Option Bytes}
    (found : Directory.get final path = some content) : Directory.get (final ++ more) path = some content := by
  unfold Directory.get at *
  rw [lookup_append, found]
  rfl

theorem get_append_new {final : FinalFiles} {path : String} {content : Option Bytes} (absent : path ∉ final.map Prod.fst) :
    Directory.get (final ++ [(path, content)]) path = some content := by
  have none := Directory.get_eq_none.mpr absent
  unfold Directory.get at *
  rw [lookup_append, none]
  exact lookup_cons_self

variable {result : CompiledProposal} {existing : List (SecretScanAcknowledgment analyzer.compiler.platform)}
  {accepted : List (String × Bytes)} {record : SecretScanAcknowledgments analyzer.compiler.platform}

theorem recordKept (free : ∀ file ∈ compiled.finalFiles, analyzer.compiler.platform.casefold file.1 ≠
      analyzer.compiler.platform.casefold acknowledgmentsPath)
    (recorded : Recorded analyzer.scan (if analyzer.readable files then some (files.get acknowledgmentsPath) else none) compiled requested
      result existing accepted record) : RecordKept analyzer files requested result existing record := by
  obtain ⟨current, read, loaded, rfl⟩ := recorded.read
  have current : files.get acknowledgmentsPath = current := by
    split at read
    · exact Option.some.inj read
    · cases read
  have absent : acknowledgmentsPath ∉ compiled.finalFiles.map Prod.fst := by
    intro member
    obtain ⟨file, inside, same⟩ := mem_map.mp member
    exact free file inside (congrArg _ same)
  have listed : ∀ path ∈ requested, ∃ content, (path, content) ∈ accepted := by
    intro path member
    rw [← recorded.paths] at member
    obtain ⟨⟨_, content⟩, inside, rfl⟩ := mem_map.mp member
    exact ⟨content, inside⟩
  constructor
  · rw [current]
    exact loaded
  · exact get_append_new absent
  · intro old member apart
    apply recorded.record.kept old member
    intro new inside
    apply apart
    rw [← recorded.paths]
    exact mem_map_of_mem inside
  · intro path member
    obtain ⟨content, inside⟩ := listed path member
    obtain ⟨entry, held, samePath, sameHash, note⟩ := recorded.record.added _ inside
    exact ⟨entry, held, samePath, ⟨content, get_append_of_get (recorded.left _ inside), sameHash⟩, note⟩
  · intro entry member
    rcases recorded.record.only entry member with old | ⟨new, inside, same, _⟩
    · exact .inl old
    · rw [same, ← recorded.paths]
      exact .inr (mem_map_of_mem inside)

section
variable (passed : Passed analyzer documents files proposal createdAt time requested compiled found)
include passed

theorem Passed.requests :
    requested = [] ∧ (analyzer.acknowledged files time requested compiled).1 = compiled ∧
        (∀ file ∈ compiled.finalFiles, analyzer.compiler.platform.casefold file.1 ≠ analyzer.compiler.platform.casefold acknowledgmentsPath) ∨
      ∃ existing record, RecordKept analyzer files requested (analyzer.acknowledged files time requested compiled).1 existing record ∧
        ∀ path, path ∈ (analyzer.acknowledged files time requested compiled).1.acknowledgedPaths ↔ path ∈ requested := by
  obtain ⟨free, none | ⟨existing, accepted, record, recorded⟩⟩ := compileSecretAcknowledgments_clean passed.accepted
  · exact .inl ⟨none.1, none.2, free⟩
  · refine .inr ⟨existing, record, recordKept free recorded, fun path => ?_⟩
    obtain ⟨content, _, _, same⟩ := recorded.read
    unfold Analyzer.acknowledged
    rw [same]
    exact Search.mem_sortedBy

theorem Passed.remains {path : String}
    {content : Option Bytes} (left : Directory.get compiled.finalFiles path = some content) :
    Directory.get (analyzer.acknowledged files time requested compiled).1.finalFiles path = some content := by
  unfold Analyzer.acknowledged
  rcases (compileSecretAcknowledgments_clean passed.accepted).2 with ⟨_, same⟩ | ⟨_, _, _, recorded⟩
  · rw [same]
    exact left
  · obtain ⟨_, _, _, same⟩ := recorded.read
    rw [same]
    exact get_append_of_get left

theorem Passed.covered {index : Nat}
    {operation : TransactionOperation} {path : String} {payload : DocumentPayload}
    (placed : proposal.operations[index]? = some operation) (staged : payloadOf operation = some (path, payload))
    (secret : analyzer.scan.scanner.secretLocations (payloadPlace index) (payloadData payload) ≠ []) :
    ∃ content, analyzer.compiler.prepareDocument path payload = some content ∧
      Covered analyzer (analyzer.acknowledged files time requested compiled).1 path content := by
  obtain ⟨location, inside⟩ := exists_mem_of_ne_nil _ secret
  have held := acknowledged_of_clean passed.clean placed staged inside
  obtain ⟨content, rendered, left⟩ := payload_staged passed.compiles (mem_of_getElem? placed) _ _ staged
  refine ⟨content, rendered, ?_⟩
  rcases passed.requests with ⟨_, same, _⟩ | ⟨existing, record, kept, listed⟩
  · rw [same, (compile_made passed.compiles).2.2.1] at held
    exact absurd held not_mem_nil
  · obtain ⟨entry, member, samePath, ⟨other, there, sameHash⟩, _⟩ := kept.added path ((listed path).mp held)
    refine ⟨record, kept.after, entry, member, samePath, ?_⟩
    rw [passed.remains left, Option.some.injEq, Option.some.injEq] at there
    rw [sameHash, there]

end

end

/-! The gate. -/

def Outside {platform : Platform} (proposal : TransactionProposal platform) (location : String) : Prop :=
  ∀ (index : Nat) (operation : TransactionOperation), proposal.operations[index]? = some operation →
    (payloadOf operation).isSome = true → under (payloadPlace index) location = false

/-- A payload with a secret passes only with an entry of the record for the very bytes it is staged with, and nothing else with
a secret passes; the report of a workspace goes by the same entries; and the record loses an entry only to a new entry of its path. -/
theorem secret_gate (analyzer : Analyzer) (documents : List ParsedDocument) (files : Files)
    (proposal : TransactionProposal analyzer.compiler.platform) (createdAt time : String) (requested : List String) :
    (Uncovered analyzer proposal (analyzer.analyze documents files proposal createdAt time requested) →
      (analyzer.analyze documents files proposal createdAt time requested).valid = false) ∧
    (∀ location ∈ analyzer.scan.scanner.secretLocations "$" (proposalData createdAt proposal), Outside proposal location →
      (analyzer.analyze documents files proposal createdAt time requested).valid = false) ∧
    (∀ (directories : List String) (texts : List TextFile),
      (∀ issue ∈ checkPossibleSecrets analyzer.scan directories (loadSecretAcknowledgments analyzer.scan texts).2 texts,
        issue.severity = .advisory → ∃ file ∈ texts, issue.path = some file.relative ∧ Named analyzer.scan texts file) ∧
      ∀ (baseline post : ValidationReport) (written : List String),
        checkPossibleSecrets analyzer.scan directories (loadSecretAcknowledgments analyzer.scan texts).2 texts ⊆ post.issues →
        ∀ file ∈ texts, file.relative ∈ written → analyzer.scan.findings file.content ≠ [] → ¬Named analyzer.scan texts file →
          ∃ diagnostic ∈ baselineRelativeWorkspaceDiagnostics analyzer.compiler.platform baseline post written,
            diagnostic.code = "CTX-POSSIBLE-SECRET" ∧ diagnostic.path = some file.relative ∧ isError diagnostic = true) ∧
    ((analyzer.analyze documents files proposal createdAt time requested).valid = true →
      ∃ compiled, (analyzer.analyze documents files proposal createdAt time requested).compiled = some compiled ∧
        (requested = [] ∧ (∀ file ∈ compiled.finalFiles,
            analyzer.compiler.platform.casefold file.1 ≠ analyzer.compiler.platform.casefold acknowledgmentsPath) ∨
          ∃ existing record, RecordKept analyzer files requested compiled existing record)) := by
  refine ⟨fun uncovered => ?_, fun location found outside => ?_, fun directories texts => ⟨?_, ?_⟩, fun valid => ?_⟩
  · by_contra valid
    rw [Bool.not_eq_false] at valid
    obtain ⟨index, operation, path, payload, placed, staged, secret, bare⟩ := uncovered
    obtain ⟨compiled, found, passed⟩ := analyze_passed valid
    obtain ⟨content, rendered, covered⟩ := passed.covered placed staged secret
    exact bare _ content passed.result rendered covered
  · by_contra valid
    rw [Bool.not_eq_false] at valid
    obtain ⟨compiled, reported, passed⟩ := analyze_passed valid
    obtain ⟨index, operation, path, payload, placed, staged, _, below⟩ := location_of_clean passed.clean found
    have apart := outside index operation placed (by rw [staged]; rfl)
    exact absurd below (by simp [apart])
  · exact fun issue listed advisory => advisory_named listed advisory
  · intro baseline post written reported file member own some stale
    obtain ⟨finding, found⟩ := List.exists_mem_of_ne_nil _ some
    exact finding_blocks member found stale reported own
  · obtain ⟨compiled, found, passed⟩ := analyze_passed valid
    refine ⟨_, passed.result, ?_⟩
    rcases passed.requests with ⟨none, same, free⟩ | ⟨existing, record, kept, _⟩
    · rw [same]
      exact .inl ⟨none, free⟩
    · exact .inr ⟨existing, record, kept⟩

theorem RecordKept.replaced {analyzer : Analyzer} {files : Files} {requested : List String} {compiled : CompiledProposal}
    {existing : List (SecretScanAcknowledgment analyzer.compiler.platform)} {record : SecretScanAcknowledgments analyzer.compiler.platform}
    (kept : RecordKept analyzer files requested compiled existing record) {path : String} (member : path ∈ requested)
    {old : SecretScanAcknowledgment analyzer.compiler.platform} (own : old.key = analyzer.compiler.platform.casefold path) {content : Bytes}
    (left : Directory.get compiled.finalFiles path = some (some content))
    (changed : old.contentHash ≠ analyzer.compiler.platform.contentHash content) : old ∉ record.acknowledgments := by
  intro inside
  obtain ⟨entry, held, samePath, ⟨other, there, sameHash⟩, _⟩ := kept.added path member
  rw [left, Option.some.injEq, Option.some.injEq] at there
  have sameKey : old.key = entry.key := by
    rw [own, SecretScanAcknowledgment.key, samePath]
  have same := inj_on_of_nodup_map record.distinct inside held sameKey
  rw [same, sameHash, there] at changed
  exact changed rfl

/-! A document that is acknowledged again. -/

namespace Sample

def path : String := "02_knowledge/modules/core.md"

def earlier : SecretScanAcknowledgment Owners.Sample.compiler.platform where
  path := path
  contentHash := "sha256:" ++ String.ofList (List.replicate 64 'a')
  acknowledgedAt := "2025-01-01T00:00:00Z"
  note := some "fixture"
  valid := by decide +kernel

def analyzer : Analyzer where
  compiler := Owners.Sample.compiler
  scan :=
    { secretLooking := fun text => text == "core"
      findings := fun _ => [⟨4, "assignment"⟩]
      loadSecretScanAcknowledgments := fun text => if text = "earlier" then SecretScanAcknowledgments.of _ [earlier] else none
      dumpSecretScanAcknowledgments := fun record =>
        encodeUtf8 (record.acknowledgments.flatMap fun entry => entry.path.toList ++ entry.contentHash.toList) }
  admission := fun _ _ => []
  consistent := fun _ => true
  handEdits := fun _ _ _ => false
  readable := fun _ => true
  conditions := fun _ _ _ => []

def files : Files := [(acknowledgmentsPath, encodeUtf8 "earlier".toList)]

theorem valid : (analyzer.analyze [] files Owners.Sample.proposal "" "2025-01-02T00:00:00Z" [path]).valid = true := by
  decide +kernel

end Sample

/-- The entry of a document that is acknowledged again does not stay. -/
theorem record_replaces_entry :
    (Sample.analyzer.analyze [] Sample.files Owners.Sample.proposal "" "2025-01-02T00:00:00Z" [Sample.path]).valid = true ∧
      ∃ compiled existing record,
        (Sample.analyzer.analyze [] Sample.files Owners.Sample.proposal "" "2025-01-02T00:00:00Z" [Sample.path]).compiled = some compiled ∧
          RecordKept Sample.analyzer Sample.files [Sample.path] compiled existing record ∧ Sample.earlier ∈ existing ∧
            Sample.earlier ∉ record.acknowledgments := by
  refine ⟨Sample.valid, ?_⟩
  obtain ⟨compiled, found, passed⟩ := analyze_passed Sample.valid
  rcases passed.requests with ⟨none, _⟩ | ⟨existing, record, kept, _⟩
  · cases none
  · obtain ⟨content, rendered, left⟩ := payload_staged passed.compiles
      List.mem_cons_self Sample.path Owners.Sample.payload rfl
    have before : existing = [Sample.earlier] := (Option.some.inj kept.before).symm
    refine ⟨_, existing, record, passed.result, kept, by rw [before]; exact List.mem_cons_self, ?_⟩
    apply kept.replaced List.mem_cons_self rfl (passed.remains left)
    rw [← Option.some.inj rendered]
    decide +kernel

/-- Without a request, the document is refused; with one, its record is kept. -/
theorem secret_gate_sample :
    (Sample.analyzer.analyze [] Sample.files Owners.Sample.proposal "" "2025-01-02T00:00:00Z" []).valid = false ∧
      ∃ compiled, (Sample.analyzer.analyze [] Sample.files Owners.Sample.proposal "" "2025-01-02T00:00:00Z" [Sample.path]).compiled =
          some compiled ∧
        ([Sample.path] = [] ∧ (∀ file ∈ compiled.finalFiles, Owners.Sample.compiler.platform.casefold file.1 ≠
            Owners.Sample.compiler.platform.casefold acknowledgmentsPath) ∨
          ∃ existing record, RecordKept Sample.analyzer Sample.files [Sample.path] compiled existing record) := by
  constructor
  · apply (secret_gate Sample.analyzer [] Sample.files Owners.Sample.proposal "" "2025-01-02T00:00:00Z" []).1
    refine ⟨0, _, _, Owners.Sample.payload, rfl, rfl, by decide +kernel, fun compiled content done _ covered => ?_⟩
    obtain ⟨record, left, _⟩ := covered
    have none : (Sample.analyzer.analyze [] Sample.files Owners.Sample.proposal "" "2025-01-02T00:00:00Z" []).compiled.bind
        (fun compiled => Directory.get compiled.finalFiles acknowledgmentsPath) = none := by decide +kernel
    rw [done, Option.bind_some, left] at none
    cases none
  · apply (secret_gate Sample.analyzer [] Sample.files Owners.Sample.proposal "" "2025-01-02T00:00:00Z" [Sample.path]).2.2.2
    exact Sample.valid

end Workctx.Secrets
