import Workctx.Ingestion.Twins

/-! A batch of registrations and the registrations one after another: they do the same if and only
if strict validation finds no error behind any transaction that the registrations commit. -/

namespace Workctx.Ingestion
open Workctx.Concurrent Workctx.Text Workctx.Domain Workctx.Staging Workctx.Engine Workctx.Services List

inductive Severity where
  | error
  | warning
  | advisory
deriving DecidableEq

structure ValidationIssue where
  code : String
  severity : Severity
  path : Option String
deriving DecidableEq

def errorsOf (issues : List ValidationIssue) : List ValidationIssue := issues.filter fun issue => issue.severity == .error

def warningsOf (issues : List ValidationIssue) : List ValidationIssue := issues.filter fun issue => issue.severity == .warning

/-- `_finalize_issues`: a warning is an error where the validation is strict. -/
def finalizeIssues (strict : Bool) (strictPaths : Option (List String)) (issues : List ValidationIssue) : List ValidationIssue :=
  issues.map fun issue =>
    if strict && issue.severity == .warning && strictPaths.all (fun paths => issue.path.any paths.contains) then
      { issue with severity := .error }
    else issue

def strictValidationPaths (proposal : Proposal) : List String :=
  proposal.operations.filterMap fun operation =>
    match operation with
    | .create target _ => some target
    | .update target _ _ => some target
    | .move _ destination _ => some destination
    | .deleteGenerated _ _ => none

/-- The blocking issues of `_baseline_relative_workspace_diagnostics`. -/
def blockingIssues (casefold : String → String) (baseline post : List ValidationIssue) (writtenPaths : List String) :
    List ValidationIssue :=
  let written := writtenPaths.map casefold
  let onWritten (issue : ValidationIssue) := issue.path.any fun path => written.contains (casefold path)
  let baselineErrorKeys := (errorsOf baseline).map fun issue => (issue.code, issue.path)
  let postErrors := errorsOf post ++ ((warningsOf post).filter onWritten).map fun issue => { issue with severity := .error }
  postErrors.filter fun issue => onWritten issue || !baselineErrorKeys.contains (issue.code, issue.path)

/-- What both paths ask of a workspace: the analysis of a proposal, and the issues of its files. -/
structure Checks where
  refuses : Proposal → Files → Bool
  issues : Files → List ValidationIssue

section
variable (site : Site) (checks : Checks)

/-- The verdict of `TransactionEngine.apply`, relative to what is wrong with the files already. -/
def engineVerdict (proposal : Proposal) (before after : Files) : Verdict :=
  if checks.refuses proposal before then .refused
  else
    let written := strictValidationPaths proposal
    let baseline := finalizeIssues false none (checks.issues before)
    let post := finalizeIssues true (some written) (checks.issues after)
    if (blockingIssues site.library.platform.casefold baseline post written).isEmpty then .accepted else .rolledBack

/-- `ValidationReport.ok` of the strict validation of all files. -/
def strictlyValid (files : Files) : Bool := (errorsOf (finalizeIssues true none (checks.issues files))).isEmpty

def batchVerdict (proposal : Proposal) (before after : Files) : Verdict :=
  if checks.refuses proposal before then .refused else if strictlyValid checks after then .accepted else .rolledBack

abbrev engineSite : Site := withVerdict site (engineVerdict site checks)

abbrev batchSite : Site := withVerdict site (batchVerdict checks)

/-- A transaction of the engine leaves no error that only a strict validation finds. -/
def Agrees (note : Note) (world : IngestionWorld) : Prop :=
  ∀ created proposal event after, note = .applies created proposal →
    attempt (engineSite site checks) proposal world = .ok (some (.ok event), after) → strictlyValid checks after.files = true

def Parted (one two : IngestionWorld) : Prop :=
  ∃ events first second, first ≠ second ∧ one.events = events ++ [first] ∧ two.events = events ++ [second]

end

section
variable {site : Site} {checks : Checks}

theorem strictlyValid_iff {files : Files} : strictlyValid checks files = true ↔ ∀ issue ∈ checks.issues files, issue.severity = .advisory := by
  unfold strictlyValid errorsOf finalizeIssues
  rw [List.isEmpty_iff, filter_eq_nil_iff, forall_mem_map]
  apply forall₂_congr
  intro issue _
  cases severity : issue.severity <;> simp [severity]

theorem engine_of_batch {proposal : Proposal} {before after : Files} (accepted : batchVerdict checks proposal before after = .accepted) :
    engineVerdict site checks proposal before after = .accepted := by
  unfold batchVerdict at accepted
  split at accepted
  · cases accepted
  · next admitted =>
    split at accepted
    · next valid =>
      have advisory := strictlyValid_iff.mp valid
      have unchanged : finalizeIssues true (some (strictValidationPaths proposal)) (checks.issues after) = checks.issues after := by
        apply (map_congr_left _).trans (map_id _)
        intro issue member
        rw [advisory issue member]
        rfl
      have noErrors : errorsOf (checks.issues after) = [] := by
        apply filter_eq_nil_iff.mpr
        intro issue member
        rw [advisory issue member]
        decide
      have noWarnings : warningsOf (checks.issues after) = [] := by
        apply filter_eq_nil_iff.mpr
        intro issue member
        rw [advisory issue member]
        decide
      unfold engineVerdict
      rw [if_neg admitted]
      dsimp only
      rw [unchanged]
      unfold blockingIssues
      rw [noErrors, noWarnings]
      rfl
    · cases accepted

/-- A transaction ends for both alike, or the engine commits it and the batch rolls it back. -/
theorem settle_cases (proposal : Proposal) (world : IngestionWorld) (after : Files) :
    Services.settle (engineSite site checks) proposal world after = Services.settle (batchSite site checks) proposal world after ∨
      (Services.settle (engineSite site checks) proposal world after =
          .ok (.ok ⟨proposal, .committed⟩, { world with files := after, events := world.events ++ [⟨proposal, .committed⟩] }) ∧
        Services.settle (batchSite site checks) proposal world after =
          .ok (.error .postconditionRollback, { world with events := world.events ++ [⟨proposal, .rolledBack⟩] }) ∧
        strictlyValid checks after = false) := by
  have conditions : proposal.postconditions.all (holds (engineSite site checks) after) =
      proposal.postconditions.all (holds (batchSite site checks) after) := by
    congr 1
  have batch : (batchSite site checks).verdict proposal world.files after = batchVerdict checks proposal world.files after := rfl
  have engine : (engineSite site checks).verdict proposal world.files after = engineVerdict site checks proposal world.files after := rfl
  unfold Services.settle
  rw [batch, engine, conditions]
  dsimp only
  by_cases refused : checks.refuses proposal world.files = true
  · left
    rw [engineVerdict, batchVerdict, if_pos refused, if_pos refused]
  · cases valid : strictlyValid checks after with
    | true =>
      left
      have accepted : batchVerdict checks proposal world.files after = .accepted := by
        rw [batchVerdict, if_neg refused, valid]
        rfl
      rw [accepted, engine_of_batch accepted]
    | false =>
      have rolledBack : batchVerdict checks proposal world.files after = .rolledBack := by
        rw [batchVerdict, if_neg refused, valid]
        rfl
      rw [rolledBack]
      cases verdict : engineVerdict site checks proposal world.files after with
      | refused =>
        unfold engineVerdict at verdict
        rw [if_neg refused] at verdict
        dsimp only at verdict
        split at verdict
        · cases verdict
        · cases verdict
      | rolledBack => exact .inl rfl
      | accepted =>
        dsimp only
        cases proposal.postconditions.all (holds (batchSite site checks) after) with
        | true => exact .inr ⟨rfl, rfl, rfl⟩
        | false => exact .inl rfl

theorem commit_cases (proposal : Proposal) (world : IngestionWorld) :
    commit (engineSite site checks) proposal false world = commit (batchSite site checks) proposal false world ∨
      ∃ after, commit (engineSite site checks) proposal false world =
          .ok (.ok ⟨proposal, .committed⟩, { world with files := after, events := world.events ++ [⟨proposal, .committed⟩] }) ∧
        commit (batchSite site checks) proposal false world =
          .ok (.error .postconditionRollback, { world with events := world.events ++ [⟨proposal, .rolledBack⟩] }) ∧
        strictlyValid checks after = false := by
  have operates : operate (engineSite site checks) = operate (batchSite site checks) := by
    funext files operation
    cases operation <;> rfl
  have conditions : holds (engineSite site checks) world.files = holds (batchSite site checks) world.files := by
    funext condition
    cases condition <;> rfl
  have revision : (engineSite site checks).revision = (batchSite site checks).revision := rfl
  unfold commit
  rw [operates, conditions, revision]
  by_cases known : (world.events.any fun event => event.proposal.id == proposal.id) = true
  · left
    rw [if_pos known, if_pos known]
  · rw [if_neg known, if_neg known]
    by_cases stale : proposal.baseRevision ≠ (batchSite site checks).revision world.events
    · left
      rw [if_pos stale, if_pos stale]
    · rw [if_neg stale, if_neg stale]
      by_cases unapproved : (proposal.approvalRequired && !false) = true
      · left
        rw [if_pos unapproved, if_pos unapproved]
      · rw [if_neg unapproved, if_neg unapproved]
        by_cases met : proposal.preconditions.all (holds (batchSite site checks) world.files) = true
        · rw [if_pos met, if_pos met]
          cases proposal.operations.foldlM (operate (batchSite site checks)) world.files with
          | error failure => exact .inl rfl
          | ok after =>
            rcases settle_cases proposal world after with same | parted
            · exact .inl same
            · exact .inr ⟨after, parted⟩
        · left
          rw [if_neg met, if_neg met]

theorem attempt_cases (proposal : Proposal) (world : IngestionWorld) :
    attempt (engineSite site checks) proposal world = attempt (batchSite site checks) proposal world ∨
      ∃ after, attempt (engineSite site checks) proposal world =
          .ok (some (.ok ⟨proposal, .committed⟩), { world with files := after, events := world.events ++ [⟨proposal, .committed⟩] }) ∧
        attempt (batchSite site checks) proposal world =
          .ok (some (.error .postconditionRollback), { world with events := world.events ++ [⟨proposal, .rolledBack⟩] }) ∧
        strictlyValid checks after = false := by
  unfold attempt
  by_cases pending : world.remote.isSome = true
  · left
    rw [if_pos pending, if_pos pending]
  · rw [if_neg pending, if_neg pending]
    rcases commit_cases proposal world with same | ⟨after, engine, batch, invalid⟩
    · left
      rw [same]
    · right
      rw [engine, batch]
      exact ⟨after, rfl, rfl, invalid⟩

theorem batch_valid {proposal : Proposal} {world after : IngestionWorld} {event : Event}
    (done : attempt (batchSite site checks) proposal world = .ok (some (.ok event), after)) :
    strictlyValid checks after.files = true := by
  rcases attempt_ok done with ⟨none_, _⟩ | ⟨⟨failure, failed⟩, _⟩ | ⟨_, committed⟩
  · cases none_
  · cases failed
  · have accepted : batchVerdict checks proposal world.files after.files = .accepted := committed.verdict
    unfold batchVerdict at accepted
    split at accepted
    · cases accepted
    · split at accepted
      · next valid => exact valid
      · cases accepted

theorem engine_batch_twins : Twins site (engineVerdict site checks) (batchVerdict checks) (Agrees site checks) Parted where
  plain world created proposal event after same := by cases same
  moves artifactId spec world created proposal event after same := by cases same
  applies created proposal := by
    apply Client.mirrors_transact appends_refl attempt_appends
    · intro world agrees
      rcases attempt_cases proposal world with same | ⟨after, engine, _, invalid⟩
      · exact same
      · have valid := agrees created proposal _ _ rfl engine
        rw [invalid] at valid
        cases valid
    · intro world differs
      rcases attempt_cases proposal world with same | ⟨after, engine, batch, _⟩
      · refine absurd ?_ differs
        rintro created' proposal' event after equal done
        cases equal
        rw [same] at done
        exact batch_valid done
      · exact ⟨_, _, _, _, engine, batch, world.events, _, _, by simp, rfl, rfl⟩

theorem self_twins (verdict : Proposal → Files → Files → Verdict) : Twins site verdict verdict (fun _ _ => True) fun _ _ => False where
  plain _ := trivial
  moves _ _ _ := trivial
  applies _ _ := Client.mirrors_act appends_refl attempt_appends fun _ => trivial

theorem parted_ends {first second left right : IngestionWorld} (parted : Parted first second) (one : Appends first left)
    (two : Appends second right) : left ≠ right := by
  rintro rfl
  obtain ⟨events, x, y, differs, firstEvents, secondEvents⟩ := parted
  unfold Appends at one two
  rw [firstEvents] at one
  rw [secondEvents] at two
  have same := (prefix_of_prefix_length_le one two (by simp)).eq_of_length (by simp)
  rw [append_cancel_left_eq] at same
  exact differs (head_eq_of_cons_eq same)

end

/-- The requests are registered one after another, up to the first failure that is not a refused
duplicate. -/
def registerEach (site : Site) (checks : Checks) (format : ManifestFormat) (requests : List (RegisterRequest × IngestionDraws)) :
    IngestionClient (List BatchOutcome) := registerBatchRequests (engineSite site checks) format requests

/-- Nothing is left to recover, or nothing is requested, and behind every transaction that the
registrations one after another commit strict validation finds no error. -/
def BatchClean (site : Site) (checks : Checks) (format : ManifestFormat) (requests : List (RegisterRequest × IngestionDraws))
    (world : IngestionWorld) : Prop :=
  (requests = [] ∨ world.remote = none) ∧ (registerEach site checks format requests).Passes (Agrees site checks) world

theorem registerItem_ok {site : Site} {format : ManifestFormat} (request : RegisterRequest) (draws : IngestionDraws)
    (world : IngestionWorld) : ∃ outcome after, (registerItem site format request draws).alone world = (.ok outcome, after) := by
  unfold registerItem
  rw [Client.alone_handle]
  split
  · next value after _ => exact ⟨value, after, rfl⟩
  · next error after _ =>
    split
    · rw [Client.alone_handle]
      split
      · next value later _ => exact ⟨value, later, rfl⟩
      · next error later _ => exact ⟨.failed error, later, rfl⟩
    · exact ⟨_, after, rfl⟩

theorem registerBatchRequests_ok {site : Site} {format : ManifestFormat} (requests : List (RegisterRequest × IngestionDraws))
    (world : IngestionWorld) : ∃ outcomes after, (registerBatchRequests site format requests).alone world = (.ok outcomes, after) := by
  induction requests generalizing world with
  | nil => exact ⟨[], world, rfl⟩
  | cons item rest ih =>
    obtain ⟨outcome, after, done⟩ := registerItem_ok item.1 item.2 world
    unfold registerBatchRequests
    rw [Client.alone_bind, done]
    dsimp only
    split
    · exact ⟨_, after, rfl⟩
    · obtain ⟨others, last, later⟩ := ih after
      rw [Client.alone_bind, later]
      exact ⟨_, last, rfl⟩

def invalidPath : String := "02_knowledge/projects/PRJ-1.md"

def sampleChecks : Checks where
  refuses := fun _ _ => false
  issues := fun files => if (files.get invalidPath).isSome then [⟨"ENTITY-INVALID", .error, some invalidPath⟩] else []

def invalidWorld : IngestionWorld := ⟨[(rawPath "a", encodeUtf8 "A".toList), (invalidPath, encodeUtf8 "?".toList)], [], none⟩

def sampleRequests : List (RegisterRequest × IngestionDraws) := [(sampleRequest (rawPath "a") [], sampleDraws "t0x")]

end Workctx.Ingestion
