import Workctx.Durable.Paced
import Workctx.Staging.Attempts

/-! Preparing a transaction: the resolution of the requested operations, the recovery assets,
and the publication of the intent. -/

namespace Workctx.Staging
open Workctx.Durable Workctx.Text Workctx.Domain List

inductive StagedOperation where
  | write (target : String) (content : Bytes)
  | move (source destination : String)
  | delete (target : String)
deriving DecidableEq

inductive ResolvedOperation where
  | replace (target : String) (content : Bytes)
  | move (source destination : String)
  | delete (target : String)
deriving DecidableEq

def StagedOperation.isWrite : StagedOperation → Bool
  | .write .. => true
  | _ => false

/-- The operation on the context-relative paths its texts stand for. -/
def StagedOperation.lexical : StagedOperation → Option ResolvedOperation
  | .write raw content => (canonicalTarget raw).map fun target => .replace target content
  | .move source destination =>
    (canonicalTarget source).bind fun source => (canonicalTarget destination).map fun destination => .move source destination
  | .delete raw => (canonicalTarget raw).map .delete

namespace ResolvedOperation

def target : ResolvedOperation → String
  | .replace target _ => target
  | .move source _ => source
  | .delete target => target

def destination : ResolvedOperation → Option String
  | .move _ destination => some destination
  | _ => none

def paths (operation : ResolvedOperation) : List String := operation.target :: operation.destination.toList

def isReplace : ResolvedOperation → Bool
  | .replace .. => true
  | _ => false

/-- The files an operation works on are there, and its destination is free. -/
def Present (disk : Disk) : ResolvedOperation → Prop
  | .replace _ _ => True
  | .move source destination => (disk.canonical source).isSome = true ∧ disk.canonical destination = none
  | .delete target => (disk.canonical target).isSome = true

def planned (disk : Disk) : ResolvedOperation → Planned
  | .replace target content => .replace target (disk.canonical target) content
  | .move source destination => .move source destination ((disk.canonical source).getD [])
  | .delete target => .delete target ((disk.canonical target).getD [])

end ResolvedOperation

section
variable (workspace : Workspace)

/-! Resolution. -/

/-- `claim`, with the collision keys claimed before. -/
def claimPath (legacy : Bool) (keys : List String) (path : String) : Except Failure (List String) := do
  demand (!keys.contains (workspace.platform.pathKey path))
    (.staging ((if legacy then "Duplicate staged target: " else "Duplicate staged operation path: ") ++ path))
  .ok (keys ++ [workspace.platform.pathKey path])

def rejectUnsafeFile (disk : Disk) (path : String) (allowMissing : Bool) : Except Failure Unit := do
  demand (workspace.safeLeaf path) (.contextBoundary ("Path must be a regular file: " ++ path))
  demand (allowMissing || (disk.canonical path).isSome) (.contextBoundary ("Required file is missing: " ++ path))

def requirePlainParentChain (disk : Disk) (path : String) : Except Failure Unit :=
  demand (parentsPlain workspace disk path) (.contextBoundary ("Path crosses nested context boundary: " ++ path))

/-- One round of `_resolve_operations`. The lease resolves its paths for the first time. -/
def resolveOperation (legacy : Bool) (disk : Disk) (keys : List String) :
    StagedOperation → Except Failure (ResolvedOperation × List String)
  | .write raw content => do
    let target ← resolveTarget workspace false disk raw
    demand (workspace.hasParent target) (.staging ("Target parent directory does not exist: " ++ raw))
    rejectUnsafeFile workspace disk target true
    let keys ← claimPath workspace legacy keys target
    .ok (.replace target content, keys)
  | .move rawSource rawDestination => do
    let source ← resolveTarget workspace false disk rawSource
    let destination ← resolveTarget workspace false disk rawDestination
    demand (workspace.hasParent source && workspace.hasParent destination)
      (.staging "Move source and destination parents must exist")
    rejectUnsafeFile workspace disk source false
    rejectUnsafeFile workspace disk destination true
    requirePlainParentChain workspace disk source
    requirePlainParentChain workspace disk destination
    demand (disk.canonical destination).isNone (.staging ("Move destination already exists: " ++ rawDestination))
    let keys ← claimPath workspace false keys source
    let keys ← claimPath workspace false keys destination
    .ok (.move source destination, keys)
  | .delete raw => do
    let target ← resolveTarget workspace false disk raw
    demand (workspace.hasParent target) (.staging ("Target parent directory does not exist: " ++ raw))
    rejectUnsafeFile workspace disk target false
    requirePlainParentChain workspace disk target
    let keys ← claimPath workspace false keys target
    .ok (.delete target, keys)

def resolveRemaining (legacy : Bool) (disk : Disk) (keys : List String) :
    List StagedOperation → Except Failure (List ResolvedOperation)
  | [] => .ok []
  | operation :: rest => do
    let (resolved, keys) ← resolveOperation workspace legacy disk keys operation
    let others ← resolveRemaining legacy disk keys rest
    .ok (resolved :: others)

def resolveOperations (disk : Disk) (operations : List StagedOperation) : Except Failure (List ResolvedOperation) :=
  resolveRemaining workspace (operations.all StagedOperation.isWrite) disk [] operations

/-! Assets. -/

/-- `_copy_optional_regular_file_streaming`: without a source there is no copy. -/
def copyOptionalRegularFile (source target : File) : Action (Option String) := do
  .ensure (source.safe workspace) (.contextBoundary ("Path must be a regular file: " ++ source.name))
  let content ← .observe fun disk => disk.files source
  match content with
  | none => .ret none
  | some payload => do
    writeFsynced target payload true
    .ret (some (workspace.platform.contentHash payload))

def backupPreimage (directory : String) (operation : ResolvedOperation) (index : Nat) : Action (Option String) := do
  let preimageHash ← copyOptionalRegularFile workspace (.canonical operation.target) (.asset directory (.backup index))
  .ensure (operation.isReplace || preimageHash.isSome)
    (.recoveryRequired ("Operation source disappeared during prepare: " ++ operation.target))
  match preimageHash with
  | none => .ret none
  | some hash => do
    .check fun disk => demand
      ((disk.files (.asset directory (.backup index))).map workspace.platform.contentHash == some hash)
      (.staging "A staged preimage failed hash verification")
    .ret (some hash)

def stagePostimage (directory : String) (operation : ResolvedOperation) (index : Nat) : Action Unit :=
  match operation with
  | .replace _ content => do
    writeFsynced (.asset directory (.stage index)) content true
    .check fun disk => demand
      ((disk.files (.asset directory (.stage index))).map workspace.platform.contentHash ==
        some (workspace.platform.contentHash content))
      (.staging "A staged postimage failed hash verification")
  | _ => .ret ()

def targetOf (directory : String) (index : Nat) (operation : ResolvedOperation) (preimageHash : Option String) :
    IntentTarget :=
  let backup := preimageHash.map fun _ => assetPath directory (.backup index)
  match operation with
  | .replace target content =>
    ⟨target, some (assetPath directory (.stage index)), some (workspace.platform.contentHash content), backup,
      preimageHash, .replace, none⟩
  | .move source destination => ⟨source, none, preimageHash, backup, preimageHash, .move, some destination⟩
  | .delete target => ⟨target, none, none, backup, preimageHash, .delete, none⟩

/-- One round of the loop of `prepare`. -/
def prepareOperation (directory : String) (operation : ResolvedOperation) (index : Nat) : Action IntentTarget := do
  .forEach (fun path => .check fun disk => requirePlainParentChain workspace disk path) operation.paths
  let preimageHash ← backupPreimage workspace directory operation index
  stagePostimage workspace directory operation index
  .ensure (operation.paths.all workspace.sameVolume)
    (.staging "Staged postimage and target must be on the same volume")
  .ret (targetOf workspace directory index operation preimageHash)

/-! Publication. -/

/-- The exclusive creation of the intent file, which reserves its name. -/
def reserveStep : Step Disk Torn := .atomic fun disk => disk.set .intent (some [])

def publishIntent (directory : String) (record : IntentRecord) : Action Unit := do
  writeFsynced (.asset directory .completeIntent) (encodeIntent record) true
  .check fun disk => demand (disk.files .intent).isNone .fileExists
  .perform reserveStep
  systemReplaceWithRetry workspace (.asset directory .completeIntent) .intent (.ret ())

/-- `_ensure_runtime_directories`; the directories of the staging area are not in this model. -/
def ensureRuntimeDirectories : Action Unit := do
  .perform scratchStep
  .perform scratchStep
  .perform scratchStep

def makeDirectory (directory : String) : Action Unit := do
  .check fun disk => demand (!disk.directories directory) .fileExists
  .perform (mkdirStep directory)

/-- Unless an intent was published, the assets are removed again. -/
def removeUnpublished (directory : String) : Action Unit := do
  let present ← .observe fun disk => (disk.files .intent).isSome
  if present then .ret () else removeOwnedDirectory directory

def stageRecord (lock transactionId nonce directory : String) (resolved : List ResolvedOperation) :
    Action IntentRecord := do
  let targets ← .collect (fun entry => prepareOperation workspace directory entry.1 entry.2) resolved.zipIdx
  verifyLock lock (some nonce)
  .ret ⟨transactionId, nonce, targets⟩

/-- What `prepare` does before it makes its directory. -/
def accept (lock transactionId nonce : String) (operations : List StagedOperation) : Action (List ResolvedOperation) := do
  .ensure (transactionId != "") (.invalidValue "transaction_id must not be empty")
  .ensure (isNonce nonce) (.invalidValue "nonce must be a lowercase 128-bit hexadecimal value")
  activateResolutionCache lock (some nonce)
  ensureRuntimeDirectories
  .check fun disk => demand (disk.files .intent).isNone
    (.recoveryRequired "A staged-write intent already requires recovery")
  .ensure (!operations.isEmpty) (.invalidValue "At least one staged write is required")
  .check fun disk => resolveOperations workspace disk operations

/-- `prepare`; the name of the directory is drawn at random. -/
def prepare (lock transactionId nonce directory : String) (operations : List StagedOperation) : Action IntentRecord := do
  let resolved ← accept workspace lock transactionId nonce operations
  makeDirectory directory
  .handle
    (do
      let record ← stageRecord workspace lock transactionId nonce directory resolved
      publishIntent workspace directory record
      .ret record)
    fun failure => do
      removeUnpublished directory
      .raise failure

/-! What resolution knows. -/

section
variable {workspace : Workspace} {disk : Disk} {legacy : Bool} {keys later : List String}

/-- A path that was resolved and has a regular leaf in an existing directory. -/
structure Placed (workspace : Workspace) (disk : Disk) (path : String) : Prop where
  canonical : canonicalTarget path = some path
  resolves : workspace.resolves path = true
  opened : nestedContext disk path = false
  hasParent : workspace.hasParent path = true
  safeLeaf : workspace.safeLeaf path = true

theorem exists_const_unit {p : Unit → Prop} : (∃ value, p value) ↔ p () :=
  ⟨fun found => found.choose_spec, fun holds => ⟨(), holds⟩⟩

theorem resolveTarget_ok {raw path : String} : resolveTarget workspace false disk raw = .ok path ↔
    canonicalTarget raw = some path ∧ workspace.resolves path = true ∧ nestedContext disk path = false := by
  unfold resolveTarget
  cases canonicalTarget raw with
  | none => simp
  | some found =>
    by_cases good : (workspace.resolves found && !nestedContext disk found) = true
    · simp only [good, Bool.or_true, if_true, Except.ok.injEq, Option.some.injEq]
      rw [Bool.and_eq_true, Bool.not_eq_true'] at good
      constructor
      · intro same
        rw [← same]
        exact ⟨rfl, good⟩
      · intro facts
        exact facts.1
    · simp only [good, Bool.or_false, Bool.false_eq_true, if_false, reduceCtorEq, Option.some.injEq, false_iff]
      intro facts
      rw [facts.1, facts.2.1, facts.2.2] at good
      exact good rfl

theorem claimPath_ok {path : String} : claimPath workspace legacy keys path = .ok later ↔
    workspace.platform.pathKey path ∉ keys ∧ later = keys ++ [workspace.platform.pathKey path] := by
  unfold claimPath
  rw [demand_bind_ok, contains_eq_mem, Bool.not_eq_true', decide_eq_false_iff_not, Except.ok.injEq, eq_comm]

theorem rejectUnsafeFile_ok {path : String} {allowMissing : Bool} :
    rejectUnsafeFile workspace disk path allowMissing = .ok () ↔
      workspace.safeLeaf path = true ∧ (allowMissing || (disk.canonical path).isSome) = true := by
  unfold rejectUnsafeFile
  rw [demand_bind_ok, demand_ok]

structure Resolution (workspace : Workspace) (disk : Disk) (keys : List String) (operation : StagedOperation)
    (resolved : ResolvedOperation) (later : List String) : Prop where
  lexical : operation.lexical = some resolved
  placed : ∀ path ∈ resolved.paths, Placed workspace disk path
  present : resolved.Present disk
  claimed : later = keys ++ resolved.paths.map workspace.platform.pathKey
  distinct : keys.Nodup → later.Nodup

theorem nodup_claimed {key : String} (fresh : key ∉ keys) (distinct : keys.Nodup) : (keys ++ [key]).Nodup := by
  rw [nodup_append]
  refine ⟨distinct, nodup_singleton _, fun one member two same => ?_⟩
  rw [mem_singleton.mp same]
  intro equal
  exact fresh (equal ▸ member)

theorem resolveOperation_ok {operation : StagedOperation} {resolved : ResolvedOperation}
    (ok : resolveOperation workspace legacy disk keys operation = .ok (resolved, later)) :
    Resolution workspace disk keys operation resolved later := by
  cases operation with
  | write raw content =>
    simp only [resolveOperation, except_bind_ok, exists_const_unit, demand_ok, resolveTarget_ok, rejectUnsafeFile_ok, claimPath_ok,
      Except.ok.injEq, Prod.mk.injEq] at ok
    obtain ⟨target, ⟨canonical, resolves, opened⟩, parent, ⟨leaf, _⟩, claimed, ⟨fresh, same⟩, rfl, rfl⟩ := ok
    refine ⟨by simp [StagedOperation.lexical, canonical], ?_, trivial, same, fun distinct => ?_⟩
    · intro path member
      rw [mem_singleton.mp member]
      exact ⟨canonicalTarget_idempotent canonical, resolves, opened, parent, leaf⟩
    · rw [same]
      exact nodup_claimed fresh distinct
  | move rawSource rawDestination =>
    simp only [resolveOperation, except_bind_ok, exists_const_unit, demand_ok, resolveTarget_ok, rejectUnsafeFile_ok, claimPath_ok,
      Except.ok.injEq, Prod.mk.injEq, Bool.and_eq_true] at ok
    obtain ⟨source, ⟨canonical, resolves, opened⟩, destination, ⟨canonical', resolves', opened'⟩, ⟨parent, parent'⟩,
      ⟨leaf, found⟩, ⟨leaf', _⟩, _, _, free, first, ⟨fresh, same⟩, second, ⟨fresh', same'⟩, rfl, rfl⟩ := ok
    refine ⟨by simp [StagedOperation.lexical, canonical, canonical'], ?_, ⟨by simpa using found, by simpa using free⟩,
      ?_, fun distinct => ?_⟩
    · intro path member
      rcases mem_cons.mp member with same | member
      · rw [same]
        exact ⟨canonicalTarget_idempotent canonical, resolves, opened, parent, leaf⟩
      · rw [mem_singleton.mp member]
        exact ⟨canonicalTarget_idempotent canonical', resolves', opened', parent', leaf'⟩
    · rw [same', same, append_assoc]
      rfl
    · rw [same', same]
      rw [same] at fresh'
      exact nodup_claimed fresh' (nodup_claimed fresh distinct)
  | delete raw =>
    simp only [resolveOperation, except_bind_ok, exists_const_unit, demand_ok, resolveTarget_ok, rejectUnsafeFile_ok, claimPath_ok,
      Except.ok.injEq, Prod.mk.injEq] at ok
    obtain ⟨target, ⟨canonical, resolves, opened⟩, parent, ⟨leaf, found⟩, _, claimed, ⟨fresh, same⟩, rfl, rfl⟩ := ok
    refine ⟨by simp [StagedOperation.lexical, canonical], ?_, found, same, fun distinct => ?_⟩
    · intro path member
      rw [mem_singleton.mp member]
      exact ⟨canonicalTarget_idempotent canonical, resolves, opened, parent, leaf⟩
    · rw [same]
      exact nodup_claimed fresh distinct

structure Resolutions (workspace : Workspace) (disk : Disk) (keys : List String) (operations : List StagedOperation)
    (resolved : List ResolvedOperation) : Prop where
  lexical : operations.map StagedOperation.lexical = resolved.map some
  placed : ∀ operation ∈ resolved, ∀ path ∈ operation.paths, Placed workspace disk path
  present : ∀ operation ∈ resolved, operation.Present disk
  distinct : (keys ++ (resolved.flatMap ResolvedOperation.paths).map workspace.platform.pathKey).Nodup

variable {operations : List StagedOperation} {resolved : List ResolvedOperation}

theorem resolveRemaining_ok (distinct : keys.Nodup)
    (ok : resolveRemaining workspace legacy disk keys operations = .ok resolved) :
    Resolutions workspace disk keys operations resolved := by
  induction operations generalizing keys resolved with
  | nil =>
    cases ok
    exact ⟨rfl, by simp, by simp, by simpa using distinct⟩
  | cons operation rest ih =>
    simp only [resolveRemaining, except_bind_ok, Except.ok.injEq] at ok
    obtain ⟨⟨first, later⟩, one, others, more, same⟩ := ok
    have resolution := resolveOperation_ok one
    have resolutions := ih (resolution.distinct distinct) more
    rw [← same]
    refine ⟨?_, ?_, ?_, ?_⟩
    · rw [map_cons, map_cons, resolution.lexical, resolutions.lexical]
    · intro other member
      rcases mem_cons.mp member with same | inside
      · rw [same]
        exact resolution.placed
      · exact resolutions.placed other inside
    · intro other member
      rcases mem_cons.mp member with same | inside
      · rw [same]
        exact resolution.present
      · exact resolutions.present other inside
    · have all := resolutions.distinct
      rw [resolution.claimed, append_assoc] at all
      rw [flatMap_cons, map_append]
      exact all

theorem resolveOperations_ok
    (ok : resolveOperations workspace disk operations = .ok resolved) :
    Resolutions workspace disk [] operations resolved := resolveRemaining_ok nodup_nil ok

/-! From the request to its plan. -/

theorem ResolvedOperation.planned_paths (operation : ResolvedOperation) :
    (operation.planned disk).paths = operation.paths := by
  cases operation <;> rfl

theorem ResolvedOperation.planned_undone {operation : ResolvedOperation} (present : operation.Present disk) :
    (operation.planned disk).Undone disk := by
  cases operation with
  | replace target content => rfl
  | move source destination =>
    obtain ⟨found, free⟩ := present
    obtain ⟨content, same⟩ := Option.isSome_iff_exists.mp found
    refine ⟨?_, free⟩
    rw [same]
    rfl
  | delete target =>
    obtain ⟨content, same⟩ := Option.isSome_iff_exists.mp present
    show disk.canonical target = some ((disk.canonical target).getD [])
    rw [same]
    rfl

theorem ResolvedOperation.planned_preimage {operation : ResolvedOperation} (present : operation.Present disk) :
    (operation.planned disk).preimage = disk.canonical operation.target := by
  have undone := planned_undone present
  cases operation with
  | replace target content => rfl
  | move source destination => exact undone.1.symm
  | delete target => exact Eq.symm undone

/-- Everything `prepare` tests before it publishes. -/
structure Admitted (workspace : Workspace) (disk : Disk) (lock transactionId nonce : String)
    (operations : List StagedOperation) (resolved : List ResolvedOperation) : Prop where
  identified : transactionId ≠ ""
  nonceValid : isNonce nonce = true
  leased : nonce = lock ∧ disk.lock = some lock
  nonempty : operations ≠ []
  resolution : resolveOperations workspace disk operations = .ok resolved
  plain : ∀ operation ∈ resolved, ∀ path ∈ operation.paths, parentsPlain workspace disk path = true
  volume : ∀ operation ∈ resolved, ∀ path ∈ operation.paths, workspace.sameVolume path = true

theorem resolved_nonempty
    (lexical : operations.map StagedOperation.lexical = resolved.map some) (nonempty : operations ≠ []) : resolved ≠ [] := by
  intro empty
  rw [empty, map_nil, map_eq_nil_iff] at lexical
  exact nonempty lexical

def Admitted.plan {lock transactionId nonce directory : String} {operations : List StagedOperation}
    {resolved : List ResolvedOperation}
    (admitted : Admitted workspace disk lock transactionId nonce operations resolved)
    (named : isTransactionDirectory directory = true) : Plan workspace :=
  have resolutions := resolveOperations_ok admitted.resolution
  have paths : (resolved.map (ResolvedOperation.planned disk)).flatMap Planned.paths =
      resolved.flatMap ResolvedOperation.paths := by
    rw [List.flatMap_map]
    exact congrArg (List.flatMap · resolved) (funext fun operation => operation.planned_paths)
  { transactionId, nonce, directory
    operations := resolved.map (ResolvedOperation.planned disk)
    identified := admitted.identified
    nonceValid := admitted.nonceValid
    directoryValid := named
    nonempty := by
      rw [ne_eq, List.map_eq_nil_iff]
      exact resolved_nonempty resolutions.lexical admitted.nonempty
    canonical := by
      intro path member
      rw [paths] at member
      obtain ⟨operation, inside, own⟩ := List.mem_flatMap.mp member
      exact (resolutions.placed operation inside path own).canonical
    regular := by
      intro path member
      rw [paths] at member
      obtain ⟨operation, inside, own⟩ := List.mem_flatMap.mp member
      have placed := resolutions.placed operation inside path own
      have plain := admitted.plain operation inside path own
      rw [parentsPlain, Bool.and_eq_true, Bool.and_eq_true] at plain
      exact ⟨placed.resolves, placed.hasParent, plain.1.2, admitted.volume operation inside path own, placed.safeLeaf⟩
    distinct := by
      rw [paths]
      exact resolutions.distinct
    plain := by
      intro planned member marks
      obtain ⟨operation, inside, same⟩ := List.mem_map.mp member
      rw [← same] at marks ⊢
      have target : (operation.planned disk).target = operation.target := by cases operation <;> rfl
      rw [target] at marks
      rw [ResolvedOperation.planned_preimage (resolutions.present operation inside)]
      have opened := (resolutions.placed operation inside operation.target List.mem_cons_self).opened
      rw [nestedContext, List.any_eq_false] at opened
      simpa using opened operation.target marks }

end

end
end Workctx.Staging
