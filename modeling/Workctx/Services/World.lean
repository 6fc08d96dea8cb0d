import Mathlib.Data.Set.Function
import Workctx.Concurrent.Client
import Workctx.Concurrent.Directory
import Workctx.Engine.Proposal
import Workctx.Services.Documents

/-! What the services of one workspace share: its canonical files and its ledger. A transaction is
atomic, and checks its base revision, its conditions and the expected hashes again. -/

namespace Workctx.Services
open Workctx.Concurrent Workctx.Text Workctx.Domain Workctx.Staging Workctx.Engine List

abbrev Files := Directory String Bytes

/-! Identifiers and times of new documents. -/

/-- `_normalize_time`; instants are microseconds. -/
def normalizeTime (value : AwareDatetime) : AwareDatetime := ⟨value.instant / 1000000 * 1000000, 0⟩

def lowerAscii (c : Char) : Char := if 'A' ≤ c && c ≤ 'Z' then Char.ofNat (c.toNat + 32) else c

/-- `_slug` of the services, with the text that stands for an empty one. -/
def slugOf (unicode : Topics.UnicodeData) (fallback value : String) : String :=
  let ascii := ((unicode.nfkd value).toList.filter fun c => c.toNat < 128).map lowerAscii
  let words := (ascii.splitOnP fun c => !isLowerAlnum c).filter fun word => !word.isEmpty
  let slug := ['-'].intercalate words
  let short := (((if slug.isEmpty then fallback.toList else slug).take 60).reverse.dropWhile (· == '-')).reverse
  if short.isEmpty then fallback else String.ofList short

def usedSequences (isIdentifier : String → Bool) (directory start : String) (files : Files) : List Nat :=
  files.filterMap fun entry =>
    let name := entry.1.toList.drop directory.length
    let stem := String.ofList (name.take (name.length - 3))
    if directory.toList.isPrefixOf entry.1.toList && start.toList.isPrefixOf name && ".md".toList.isSuffixOf name &&
        isIdentifier stem then
      (String.ofList (stem.toList.drop (stem.length - 2))).toNat?
    else none

def twoDigits (number : Nat) : String := if number < 10 then "0" ++ toString number else toString number

/-- The first identifier of the day whose number is free. -/
def allocateId (isIdentifier : String → Bool) (directory start : String) (files : Files) : Option String :=
  (((List.range 99).map (· + 1)).find? fun sequence =>
    !(usedSequences isIdentifier directory start files).contains sequence).map fun sequence => start ++ twoDigits sequence

/-! Proposals. -/

/-- An operation with the bytes its payload is rendered as. -/
inductive FileOperation where
  | create (target : String) (content : Bytes)
  | update (target : String) (content : Bytes) (expectedHash : String)
  | move (source destination expectedHash : String)
  | deleteGenerated (target expectedHash : String)
deriving DecidableEq

def FileOperation.paths : FileOperation → List String
  | .create target _ => [target]
  | .update target _ _ => [target]
  | .move source destination _ => [source, destination]
  | .deleteGenerated target _ => [target]

structure Proposal where
  id : String
  baseRevision : String
  actor : Actor
  sourceRefs : List String
  operations : List FileOperation
  preconditions : List TransactionCondition
  postconditions : List TransactionCondition
  approvalRequired : Bool
deriving DecidableEq

structure Event where
  proposal : Proposal
  result : AuditResult
deriving DecidableEq

/-- What the validation of the files says of a transaction: it is refused before anything changes,
rolled back behind its change, or accepted. -/
inductive Verdict where
  | refused
  | rolledBack
  | accepted
deriving DecidableEq

/-- What does not change while the services run: the context, the formats of its documents, the
validation of its files, and its policies. -/
structure Site where
  library : Library
  contextId : String
  /-- `render_markdown_bytes` -/
  render : EntityFrontmatter (Extras library.platform) → String → Bytes
  /-- The document of `read_entity`: its front matter and its body. -/
  parse : Bytes → Option (EntityFrontmatter (Extras library.platform) × String)
  /-- The bytes an embedded payload is rendered as. -/
  compile : DocumentPayload → Bytes
  /-- `strftime("%Y%m%dT%H%M%SZ")` of the instant in UTC. -/
  utcStamp : AwareDatetime → String
  /-- `verify_ledger(...).head_hash` -/
  revision : List Event → String
  resolvesReference : Files → String → Bool
  verdict : Proposal → Files → Files → Verdict
  /-- `policies.local_mutations is REVIEW_REQUIRED` -/
  localReview : Bool
  /-- `contains_possible_secret` -/
  possibleSecret : String → Bool

/-- The state the clients share; `remote` is what a service has outside of the workspace. -/
structure World (ρ : Type) where
  files : Files
  events : List Event
  remote : ρ

/-- The contents of the files are among the known ones. -/
def Inside {ρ : Type} (known : Set Bytes) (world : World ρ) : Prop :=
  ∀ path content, world.files.get path = some content → content ∈ known

section
variable {ρ : Type}

theorem inside_of_all {contents : List Bytes} {world : World ρ}
    (all : world.files.all (fun entry => contents.contains entry.2) = true) :
    Inside { content | content ∈ contents } world := by
  intro path content found
  have contained := all_eq_true.mp all (path, content) (Directory.mem_of_get found)
  exact contains_iff_mem.mp contained

end

section
variable (site : Site)

def hashBytes (content : Bytes) : String := site.library.platform.contentHash content

/-- `TransactionProposal.model_validate`, of the members that a service gives. -/
def acceptsProposal (proposal : Proposal) : Bool :=
  let platform := site.library.platform
  isTransactionProposalId proposal.id && isContextId site.contextId &&
    (proposal.sourceRefs.all fun ref => platform.validateDurableReference ref == some ref) &&
    proposal.sourceRefs.all (requireLocalReferenceContext platform site.contextId) &&
    !proposal.operations.isEmpty &&
    (proposal.operations.all fun operation => operation.paths.all (validateContextPath platform)) &&
    decide ((proposal.operations.flatMap FileOperation.paths).map platform.pathKey).Nodup

def operate (files : Files) : FileOperation → Except Failure Files
  | .create target content =>
    match files.get target with
    | none => .ok (files.put target content)
    | some _ => .error .proposalValidation
  | .update target content expectedHash =>
    match files.get target with
    | none => .error .proposalValidation
    | some old => if hashBytes site old = expectedHash then .ok (files.put target content) else .error .proposalValidation
  | .move source destination expectedHash =>
    match files.get source, files.get destination with
    | some old, none =>
      if hashBytes site old = expectedHash then .ok ((files.erase source).put destination old)
      else .error .proposalValidation
    | _, _ => .error .proposalValidation
  | .deleteGenerated target expectedHash =>
    match files.get target with
    | none => .error .proposalValidation
    | some old => if hashBytes site old = expectedHash then .ok (files.erase target) else .error .proposalValidation

def holds (files : Files) : TransactionCondition → Bool
  | .pathExists path => (files.get path).isSome
  | .pathAbsent path => (files.get path).isNone
  | .pathHash path contentHash => (files.get path).any fun content => hashBytes site content == contentHash
  | .referenceExists reference => site.resolvesReference files reference

variable {ρ : Type}

/-- The outcome behind the files a transaction would leave. -/
def settle (proposal : Proposal) (world : World ρ) (after : Files) : Except Failure (Except Failure Event × World ρ) :=
  let rolledBack := (.error .postconditionRollback, { world with events := world.events ++ [⟨proposal, .rolledBack⟩] })
  match site.verdict proposal world.files after with
  | .refused => .error .proposalValidation
  | .rolledBack => .ok rolledBack
  | .accepted =>
    if proposal.postconditions.all (holds site after) then
      .ok (.ok ⟨proposal, .committed⟩,
        { world with files := after, events := world.events ++ [⟨proposal, .committed⟩] })
    else .ok rolledBack

/-- `apply` as one atomic step: a refusal changes nothing, a rollback appends its event. -/
def commit (proposal : Proposal) (approved : Bool) (world : World ρ) :
    Except Failure (Except Failure Event × World ρ) :=
  if world.events.any fun event => event.proposal.id == proposal.id then .error .duplicateProposal
  else if proposal.baseRevision ≠ site.revision world.events then .error .staleRevision
  else if proposal.approvalRequired && !approved then .error .proposalValidation
  else if proposal.preconditions.all (holds site world.files) then
    match proposal.operations.foldlM (operate site) world.files with
    | .ok after => settle site proposal world after
    | .error failure => .error failure
  else .error .proposalValidation

end

/-! What the operations change. -/

section
variable {site : Site} {files after : Files} {path : String}

theorem operate_elsewhere {operation : FileOperation} (done : operate site files operation = .ok after)
    (outside : path ∉ operation.paths) : after.get path = files.get path := by
  cases operation with
  | create target content =>
    unfold operate at done
    dsimp only at done
    split at done
    · cases done
      exact Directory.get_put_of_ne fun same => outside (same ▸ mem_singleton_self _)
    · cases done
  | update target content expectedHash =>
    unfold operate at done
    dsimp only at done
    split at done
    · cases done
    · split at done
      · cases done
        exact Directory.get_put_of_ne fun same => outside (same ▸ mem_singleton_self _)
      · cases done
  | move source destination expectedHash =>
    simp only [FileOperation.paths, mem_cons, not_mem_nil, or_false, not_or] at outside
    unfold operate at done
    dsimp only at done
    split at done
    · split at done
      · cases done
        rw [Directory.get_put_of_ne outside.2, Directory.get_erase_of_ne outside.1]
      · cases done
    · cases done
  | deleteGenerated target expectedHash =>
    unfold operate at done
    dsimp only at done
    split at done
    · cases done
    · split at done
      · cases done
        exact Directory.get_erase_of_ne fun same => outside (same ▸ mem_singleton_self _)
      · cases done

theorem operations_elsewhere {operations : List FileOperation}
    (done : operations.foldlM (operate site) files = .ok after)
    (outside : ∀ operation ∈ operations, path ∉ operation.paths) : after.get path = files.get path := by
  induction operations generalizing files with
  | nil =>
    cases done
    rfl
  | cons operation rest ih =>
    rw [foldlM_cons] at done
    obtain ⟨middle, first, later⟩ := bind_ok.mp done
    rw [ih later fun other member => outside other (mem_cons_of_mem _ member)]
    exact operate_elsewhere first (outside operation mem_cons_self)

theorem operations_at {front back : List FileOperation} {operation : FileOperation}
    (done : (front ++ operation :: back).foldlM (operate site) files = .ok after)
    (before : ∀ other ∈ front, path ∉ other.paths) (behind : ∀ other ∈ back, path ∉ other.paths) :
    ∃ start middle, operate site start operation = .ok middle ∧ start.get path = files.get path ∧
      after.get path = middle.get path := by
  rw [foldlM_append] at done
  obtain ⟨start, first, later⟩ := bind_ok.mp done
  rw [foldlM_cons] at later
  obtain ⟨middle, here, last⟩ := bind_ok.mp later
  exact ⟨start, middle, here, operations_elsewhere first before, operations_elsewhere last behind⟩

theorem operate_create {target : String} {content : Bytes} :
    operate site files (.create target content) = .ok after ↔ files.get target = none ∧ after = files.put target content := by
  unfold operate
  dsimp only
  split
  · next absent => simp [absent, eq_comm]
  · next present => simp [present]

theorem operate_update {target expectedHash : String} {content : Bytes} :
    operate site files (.update target content expectedHash) = .ok after ↔
      (∃ old, files.get target = some old ∧ hashBytes site old = expectedHash) ∧ after = files.put target content := by
  unfold operate
  dsimp only
  split
  · next absent => simp [absent]
  · next old present =>
    split
    · next same => simp [present, same, eq_comm]
    · next other => simp [present, other]

end

/-! What a transaction leaves. -/

section
variable {site : Site} {ρ : Type} {proposal : Proposal} {approved : Bool} {world after : World ρ}

structure Committed (site : Site) (proposal : Proposal) (world after : World ρ) : Prop where
  fresh : ∀ event ∈ world.events, event.proposal.id ≠ proposal.id
  base : proposal.baseRevision = site.revision world.events
  conditions : ∀ condition ∈ proposal.preconditions, holds site world.files condition = true
  operated : proposal.operations.foldlM (operate site) world.files = .ok after.files
  events : after.events = world.events ++ [⟨proposal, .committed⟩]
  remote : after.remote = world.remote
  verdict : site.verdict proposal world.files after.files = .accepted
  results : ∀ condition ∈ proposal.postconditions, holds site after.files condition = true

structure RolledBack (proposal : Proposal) (world after : World ρ) : Prop where
  files : after.files = world.files
  events : after.events = world.events ++ [⟨proposal, .rolledBack⟩]
  remote : after.remote = world.remote

theorem commit_ok {result : Except Failure Event} (done : commit site proposal approved world = .ok (result, after)) :
    (result = .ok ⟨proposal, .committed⟩ ∧ Committed site proposal world after) ∨
      ((∃ failure, result = .error failure) ∧ RolledBack proposal world after) := by
  unfold commit at done
  split at done
  · cases done
  · next fresh =>
    split at done
    · cases done
    · next base =>
      split at done
      · cases done
      · split at done
        · next conditions =>
          split at done
          · next files operated =>
            unfold settle at done
            split at done
            · cases done
            · cases done
              exact .inr ⟨⟨_, rfl⟩, rfl, rfl, rfl⟩
            · next verdict =>
              split at done
              · next results =>
                cases done
                rw [Bool.not_eq_true, any_eq_false] at fresh
                refine .inl ⟨rfl, ?_, not_not.mp base, all_eq_true.mp conditions, operated, rfl, rfl, verdict,
                  all_eq_true.mp results⟩
                intro event member
                simpa using fresh event member
              · cases done
                exact .inr ⟨⟨_, rfl⟩, rfl, rfl, rfl⟩
          · cases done
        · cases done

section
variable (committed : Committed site proposal world after)
include committed

theorem Committed.single {operation : FileOperation}
    (single : proposal.operations = [operation]) : operate site world.files operation = .ok after.files := by
  have operated := committed.operated
  rw [single, foldlM_cons] at operated
  obtain ⟨middle, done, same⟩ := bind_ok.mp operated
  cases same
  exact done

theorem Committed.addressed (accepted : acceptsProposal site proposal = true)
    {operation : FileOperation} (member : operation ∈ proposal.operations) {path : String} (here : path ∈ operation.paths) :
    ∃ start middle, operate site start operation = .ok middle ∧ start.get path = world.files.get path ∧
      after.files.get path = middle.get path := by
  unfold acceptsProposal at accepted
  obtain ⟨_, keys⟩ := Bool.and_eq_true_iff.mp accepted
  have distinct : (proposal.operations.flatMap FileOperation.paths).Nodup := List.Nodup.of_map _ (of_decide_eq_true keys)
  obtain ⟨front, back, split⟩ := append_of_mem member
  have operated := committed.operated
  rw [split] at distinct operated
  rw [flatMap_append, flatMap_cons, nodup_append, nodup_append] at distinct
  obtain ⟨_, ⟨_, _, behind⟩, before⟩ := distinct
  apply operations_at operated
  · intro other there also
    exact before path (mem_flatMap.mpr ⟨other, there, also⟩) path (mem_append_left _ here) rfl
  · intro other there also
    exact behind path here path (mem_flatMap.mpr ⟨other, there, also⟩) rfl

theorem Committed.elsewhere {path : String}
    (outside : ∀ operation ∈ proposal.operations, path ∉ operation.paths) :
    after.files.get path = world.files.get path := operations_elsewhere committed.operated outside

end

end

/-! A library for small workspaces. -/

def sampleDigest (content : Bytes) : String :=
  let number := (content.take 8).foldl (fun total byte => total * 256 + byte.toNat) 1
  String.ofList ((List.range 64).map fun index => Json.hexDigit ((number >>> (4 * index)) % 16))

theorem sampleDigest_revision (content : Bytes) : isRevision (sampleDigest content) = true := by
  have digit : ∀ n < 16, isLowerHex (Json.hexDigit n) = true := by decide
  rw [isRevision, sampleDigest, String.toList_ofList, isHex64, length_map, length_range, all_map,
    all_eq_true.mpr]
  · rfl
  · intro index _
    exact digit _ (Nat.mod_lt _ (by decide))

def demoUri (text : String) : Option WorkctxUri :=
  match text.toList.splitOn '/' with
  | [scheme, [], contextId, entityType, entityId] =>
    if scheme = "workctx:".toList then some ⟨String.ofList contextId, String.ofList entityType, String.ofList entityId⟩
    else none
  | _ => none

def demoPlatform : Platform where
  sha256Hex := sampleDigest
  hexDigest := sampleDigest_revision
  nfc := id
  casefold := id
  canonicalTimestamp := some
  validateDurableReference := some
  workctxContext text := (demoUri text).map WorkctxUri.contextId

def demoLibrary : Library where
  unicode := Topics.sampleUnicode
  platform := demoPlatform
  parseUri := demoUri
  formatUri := fun uri => "workctx://" ++ uri.contextId ++ "/" ++ uri.entityType ++ "/" ++ uri.entityId
  utcDay := fun _ => "20260101"

def asciiText (content : Bytes) : String := String.ofList (content.map fun byte => Char.ofNat byte.toNat)

end Workctx.Services
