import Workctx.Secrets.Acknowledgments

/-! The secrets in the report of a workspace: the findings of its texts, which of them the record acknowledges, and what the
report means for a transaction that wrote the texts. -/

namespace Workctx.Secrets
open Workctx.Text Workctx.Concurrent Workctx.Domain Workctx.Staging Workctx.Engine List

structure TextFile where
  relative : String
  content : String
  bytes : Bytes

/-- The repair of `CTX-POSSIBLE-SECRET` -/
def possibleSecretRepair : String :=
  "Use the reported line and pattern to redact the value or replace it with a secret reference name. Only when the operator " ++
    "explicitly confirms the text is not a live credential, re-apply with --acknowledge-possible-secret; never acknowledge " ++
    "merely to clear an error."

section
variable {platform : Platform}

def loadSecretAcknowledgments (scan : SecretScan platform) (texts : List TextFile) :
    List ValidationIssue × Directory String (SecretScanAcknowledgment platform) :=
  match texts.find? fun file => file.relative == acknowledgmentsPath with
  | none => ([], [])
  | some file =>
    match scan.loadSecretScanAcknowledgments file.content with
    | none => ([⟨.error, "CTX-SECRET-ACKNOWLEDGMENT-INVALID",
        "A secret-scan acknowledgment record or requested acknowledgment is invalid.", some acknowledgmentsPath,
        some ("Use a written context-relative path whose staged content reports CTX-POSSIBLE-SECRET, " ++
          "or repair the canonical acknowledgment file to match its schema.")⟩], [])
    | some record => ([], keyed record.acknowledgments)

def isWorkingPath (platform : Platform) (workingDirectories : List String) (relative : String) : Bool :=
  workingDirectories.contains (platform.casefold (String.ofList ((relative.toList.map portableChar).takeWhile (· ≠ '/'))))

/-- The record has an entry of the path for exactly these bytes. -/
def isAcknowledged (acknowledgments : Directory String (SecretScanAcknowledgment platform)) (file : TextFile) : Bool :=
  (acknowledgments.get (platform.casefold file.relative)).any fun entry => entry.contentHash == platform.contentHash file.bytes

def possibleSecretIssue (acknowledged working : Bool) (relative : String) (finding : Finding) : ValidationIssue where
  severity := if acknowledged then .advisory else if working then .warning else .error
  code := "CTX-POSSIBLE-SECRET"
  message := "Possible secret at line " ++ toString finding.line ++ ": " ++ finding.kind ++
    if acknowledged then "; the operator acknowledgment matches this file's content hash."
    else "; the acknowledgment is missing or stale for this file's content hash."
  path := some relative
  repairAction := some possibleSecretRepair

def checkPossibleSecrets (scan : SecretScan platform) (workingDirectories : List String)
    (acknowledgments : Directory String (SecretScanAcknowledgment platform)) (texts : List TextFile) : List ValidationIssue :=
  (Search.sortedBy TextFile.relative texts).flatMap fun file =>
    (scan.findings file.content).map (possibleSecretIssue (isAcknowledged acknowledgments file)
      (isWorkingPath platform workingDirectories file.relative) file.relative)

variable {scan : SecretScan platform} {workingDirectories : List String} {texts : List TextFile} {file : TextFile}

theorem loaded_entry {key : String} {entry : SecretScanAcknowledgment platform}
    (found : (loadSecretAcknowledgments scan texts).2.get key = some entry) :
    ∃ record : SecretScanAcknowledgments platform, (∃ source ∈ texts, source.relative = acknowledgmentsPath ∧
      scan.loadSecretScanAcknowledgments source.content = some record) ∧ entry ∈ record.acknowledgments ∧ entry.key = key := by
  unfold loadSecretAcknowledgments at found
  split at found
  · cases found
  · next source here =>
    split at found
    · cases found
    · next record loaded =>
      have member := mem_of_find?_eq_some here
      have named := find?_some here
      exact ⟨record, ⟨source, member, by simpa using named, loaded⟩, keyed_get found⟩

/-- The record of the workspace has an entry of the text for exactly its bytes. -/
def Named (scan : SecretScan platform) (texts : List TextFile) (file : TextFile) : Prop :=
  ∃ record : SecretScanAcknowledgments platform,
    (∃ source ∈ texts, source.relative = acknowledgmentsPath ∧ scan.loadSecretScanAcknowledgments source.content = some record) ∧
      ∃ entry ∈ record.acknowledgments, entry.key = platform.casefold file.relative ∧
        entry.contentHash = platform.contentHash file.bytes

theorem named_of_acknowledged (held : isAcknowledged (loadSecretAcknowledgments scan texts).2 file = true) : Named scan texts file := by
  obtain ⟨entry, found, same⟩ := (Option.any_eq_true _ _).mp held
  obtain ⟨record, source, inside, named⟩ := loaded_entry found
  exact ⟨record, source, entry, inside, named, beq_iff_eq.mp same⟩

theorem advisory_named {issue : ValidationIssue}
    (listed : issue ∈ checkPossibleSecrets scan workingDirectories (loadSecretAcknowledgments scan texts).2 texts)
    (advisory : issue.severity = .advisory) : ∃ file ∈ texts, issue.path = some file.relative ∧ Named scan texts file := by
  obtain ⟨file, member, finding⟩ := mem_flatMap.mp listed
  obtain ⟨finding, _, rfl⟩ := mem_map.mp finding
  rw [Search.mem_sortedBy] at member
  by_cases held : isAcknowledged (loadSecretAcknowledgments scan texts).2 file = true
  · exact ⟨file, member, rfl, named_of_acknowledged held⟩
  · simp only [possibleSecretIssue, held] at advisory
    split at advisory
    · contradiction
    · split at advisory <;> cases advisory

/-- A finding in a written text blocks the transaction, unless the record has an entry for its bytes. -/
theorem finding_blocks (member : file ∈ texts) {finding : Finding} (found : finding ∈ scan.findings file.content)
    (stale : ¬Named scan texts file) {baseline post : ValidationReport}
    (reported : checkPossibleSecrets scan workingDirectories (loadSecretAcknowledgments scan texts).2 texts ⊆ post.issues)
    {written : List String} (own : file.relative ∈ written) :
    ∃ diagnostic ∈ baselineRelativeWorkspaceDiagnostics platform baseline post written,
      diagnostic.code = "CTX-POSSIBLE-SECRET" ∧ diagnostic.path = some file.relative ∧ isError diagnostic = true := by
  have unheld : isAcknowledged (loadSecretAcknowledgments scan texts).2 file = false :=
    Bool.not_eq_true _ ▸ mt named_of_acknowledged stale
  have listed : possibleSecretIssue false (isWorkingPath platform workingDirectories file.relative) file.relative finding ∈ post.issues := by
    apply reported
    refine mem_flatMap.mpr ⟨file, Search.mem_sortedBy.mpr member, ?_⟩
    rw [unheld]
    exact mem_map_of_mem found
  have here : ∀ severity, onWritten platform (written.map platform.casefold)
      { possibleSecretIssue false (isWorkingPath platform workingDirectories file.relative) file.relative finding with severity } = true := by
    intro severity
    simp only [onWritten, possibleSecretIssue, Option.any_some, contains_eq_mem, decide_eq_true_eq]
    exact mem_map_of_mem own
  have raised : { possibleSecretIssue false (isWorkingPath platform workingDirectories file.relative) file.relative finding with
      severity := .error } ∈ postErrors platform post (written.map platform.casefold) := by
    cases working : isWorkingPath platform workingDirectories file.relative with
    | false =>
      rw [working] at listed
      exact mem_append_left _ (mem_filter.mpr ⟨listed, rfl⟩)
    | true =>
      rw [working] at listed here
      apply mem_append_right
      refine mem_map.mpr ⟨_, mem_filter.mpr ⟨mem_filter.mpr ⟨listed, rfl⟩, here .warning⟩, rfl⟩
  refine ⟨workspaceIssueDiagnostic _, mem_append_left _ (mem_map_of_mem (mem_filter.mpr ⟨raised, ?_⟩)), rfl, rfl, rfl⟩
  rw [blocks, here .error]
  rfl

end
end Workctx.Secrets
