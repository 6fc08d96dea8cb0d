import Workctx.Staging.Replacement

/-! What a published intent stands for: the operations with the contents of their images, the
shapes the files of one operation can have, and what a look at the disk says about them. -/

namespace Workctx.Staging
open Workctx.Durable Workctx.Text Workctx.Domain List

/-- An operation with its images. The intent only records their hashes. -/
inductive Planned where
  | replace (target : String) (preimage : Option Bytes) (postimage : Bytes)
  | move (source destination : String) (content : Bytes)
  | delete (target : String) (preimage : Bytes)
deriving DecidableEq

namespace Planned

def target : Planned → String
  | .replace target _ _ => target
  | .move source _ _ => source
  | .delete target _ => target

def destination : Planned → Option String
  | .move _ destination _ => some destination
  | _ => none

def paths (planned : Planned) : List String := planned.target :: planned.destination.toList

def writtenPath : Planned → Option String
  | .replace target _ _ => some target
  | .move _ destination _ => some destination
  | .delete _ _ => none

def preimage : Planned → Option Bytes
  | .replace _ preimage _ => preimage
  | .move _ _ content => some content
  | .delete _ preimage => some preimage

def operation (platform : Platform) : Planned → ValidatedOperation
  | .replace target preimage postimage =>
    .replace target (platform.contentHash postimage) (preimage.map platform.contentHash)
  | .move source destination content => .move source destination (platform.contentHash content)
  | .delete target preimage => .delete target (platform.contentHash preimage)

/-- The record of an operation at its place in the intent. -/
def intentTarget (platform : Platform) (directory : String) (index : Nat) (planned : Planned) : IntentTarget :=
  let backup := planned.preimage.map fun _ => assetPath directory (.backup index)
  match planned with
  | .replace target preimage postimage =>
    ⟨target, some (assetPath directory (.stage index)), some (platform.contentHash postimage), backup,
      preimage.map platform.contentHash, .replace, none⟩
  | .move source destination content =>
    ⟨source, none, some (platform.contentHash content), backup, some (platform.contentHash content), .move,
      some destination⟩
  | .delete target preimage => ⟨target, none, none, backup, some (platform.contentHash preimage), .delete, none⟩

/-- The images are in place as they were before the operation. -/
def Undone (disk : Disk) : Planned → Prop
  | .replace target preimage _ => disk.canonical target = preimage
  | .move source destination content => disk.canonical source = some content ∧ disk.canonical destination = none
  | .delete target preimage => disk.canonical target = some preimage

/-- The images are in place as the operation leaves them. -/
def Done (disk : Disk) : Planned → Prop
  | .replace target _ postimage => disk.canonical target = some postimage
  | .move source destination content => disk.canonical source = none ∧ disk.canonical destination = some content
  | .delete target _ => disk.canonical target = none

/-- The staged postimage waits for its replacement, or was consumed by it and may have been
taken back from the target. Moves and deletes need no staged file. -/
def Supplied (disk : Disk) (directory : String) (index : Nat) : Planned → Prop
  | .replace target preimage postimage =>
    disk.canonical target = preimage ∧ disk.files (.asset directory (.stage index)) = some postimage ∨
      disk.canonical target = some postimage ∧ (disk.files (.asset directory (.stage index)) = none ∨
        disk.files (.asset directory (.stage index)) = some postimage)
  | _ => True

/-- The shapes the files of one operation can have while its intent is published. -/
structure Holds (disk : Disk) (directory : String) (index : Nat) (planned : Planned) : Prop where
  backup : disk.files (.asset directory (.backup index)) = planned.preimage
  supplied : planned.Supplied disk directory index
  images : planned.Undone disk ∨ planned.Done disk

def Touches (directory : String) (index : Nat) (planned : Planned) : File → Prop
  | .canonical path => path ∈ planned.paths
  | .asset other name => other = directory ∧
      (name = .stage index ∨ name = .backup index ∨ name = .rollback index ∨ ∃ token, name = .rebuild index token)
  | .intent => False

def HashesApart (platform : Platform) : Planned → Prop
  | .replace _ preimage postimage =>
    ∀ content, preimage = some content → platform.contentHash content = platform.contentHash postimage →
      content = postimage
  | _ => True

variable {disk other : Disk} {directory : String} {index : Nat} {planned : Planned}

theorem target_mem_paths (planned : Planned) : planned.target ∈ planned.paths := mem_cons_self

theorem operation_target (platform : Platform) (planned : Planned) :
    (planned.operation platform).target = planned.target := by
  cases planned <;> rfl

theorem operation_destination (platform : Platform) (planned : Planned) :
    (planned.operation platform).destination = planned.destination := by
  cases planned <;> rfl

theorem operation_preimageHash (platform : Platform) (planned : Planned) :
    (planned.operation platform).preimageHash = planned.preimage.map platform.contentHash := by
  cases planned <;> rfl

theorem canonical_congr (same : ∀ file, planned.Touches directory index file → other.files file = disk.files file)
    {path : String} (member : path ∈ planned.paths) : other.canonical path = disk.canonical path :=
  same (.canonical path) member

theorem undone_congr (same : ∀ path ∈ planned.paths, other.canonical path = disk.canonical path) :
    planned.Undone other ↔ planned.Undone disk := by
  cases planned with
  | replace target preimage postimage => rw [Undone, Undone, same target (target_mem_paths _)]
  | move source destination content =>
    rw [Undone, Undone, same source (target_mem_paths _), same destination (by simp [paths, Planned.destination])]
  | delete target preimage => rw [Undone, Undone, same target (target_mem_paths _)]

theorem done_congr (same : ∀ path ∈ planned.paths, other.canonical path = disk.canonical path) :
    planned.Done other ↔ planned.Done disk := by
  cases planned with
  | replace target preimage postimage => rw [Done, Done, same target (target_mem_paths _)]
  | move source destination content =>
    rw [Done, Done, same source (target_mem_paths _), same destination (by simp [paths, Planned.destination])]
  | delete target preimage => rw [Done, Done, same target (target_mem_paths _)]

theorem Holds.congr (same : ∀ file, planned.Touches directory index file → other.files file = disk.files file)
    (holds : planned.Holds disk directory index) : planned.Holds other directory index := by
  have paths : ∀ path ∈ planned.paths, other.canonical path = disk.canonical path :=
    fun path member => canonical_congr same member
  refine ⟨?_, ?_, ?_⟩
  · rw [same (.asset directory (.backup index)) ⟨rfl, by simp⟩]
    exact holds.backup
  · have supplied := holds.supplied
    cases planned with
    | replace target preimage postimage =>
      have stage := same (.asset directory (.stage index)) ⟨rfl, by simp⟩
      rw [Supplied] at supplied ⊢
      rw [paths target (target_mem_paths _), stage]
      exact supplied
    | move source destination content => trivial
    | delete target preimage => trivial
  · rw [undone_congr paths, done_congr paths]
    exact holds.images

end Planned

/-! A look at one operation. -/

section
variable {workspace : Workspace} {disk : Disk} {directory : String} {index : Nat} {planned : Planned}

/-- The static facts a path needs for every test of the staging layer to pass. -/
structure Workspace.Regular (workspace : Workspace) (path : String) : Prop where
  resolves : workspace.resolves path = true
  hasParent : workspace.hasParent path = true
  plainParents : workspace.plainParents path = true
  sameVolume : workspace.sameVolume path = true
  safeLeaf : workspace.safeLeaf path = true

/-- The parents of the paths of an operation are directories of this context. -/
def Open (disk : Disk) (planned : Planned) : Prop := ∀ path ∈ planned.paths, nestedContext disk path = false

theorem parentsPlain_of (regular : workspace.Regular path) (opened : nestedContext disk path = false) :
    parentsPlain workspace disk path = true := by
  rw [parentsPlain, regular.hasParent, regular.plainParents, opened]
  rfl

theorem requireOperationParents_of (regular : ∀ path ∈ planned.paths, workspace.Regular path)
    (opened : Open disk planned) (present : disk.directories directory = true) :
    requireOperationParents workspace disk directory (planned.operation workspace.platform) = .ok () := by
  have each : ∀ path ∈ planned.paths, parentsPlain workspace disk path = true ∧ workspace.safeLeaf path = true ∧
      parentUsable workspace path = true := by
    intro path member
    have facts := regular path member
    refine ⟨parentsPlain_of facts (opened path member), facts.safeLeaf, ?_⟩
    rw [parentUsable, facts.hasParent, facts.sameVolume]
    rfl
  obtain ⟨plain, leaf, usable⟩ := each planned.target (Planned.target_mem_paths planned)
  have destinations : planned.destination.all (fun path => parentsPlain workspace disk path && workspace.safeLeaf path) = true ∧
      planned.destination.all (parentUsable workspace) = true := by
    cases destination : planned.destination with
    | none => exact ⟨rfl, rfl⟩
    | some path =>
      obtain ⟨plain, leaf, usable⟩ := each path (by simp [Planned.paths, destination])
      simp [plain, leaf, usable]
  simp only [requireOperationParents, Planned.operation_target, Planned.operation_destination, demand, present, plain,
    leaf, usable, destinations.1, destinations.2, Bool.or_true, Bool.and_true, if_true]
  rfl

theorem hashOptionalFile_of (safe : file.safe workspace = true) :
    hashOptionalFile workspace disk file = .ok ((disk.files file).map workspace.platform.contentHash) := by
  rw [hashOptionalFile, if_pos safe]

/-- What a snapshot of an operation reports while its files have one of their shapes. -/
def Planned.state (workspace : Workspace) (disk : Disk) (planned : Planned) : TargetRecoveryState :=
  if applied workspace disk (planned.operation workspace.platform) then .postimagePresent
  else .stagedPostimageAvailable

def Planned.snapshot (workspace : Workspace) (disk : Disk) (directory : String) (index : Nat) (planned : Planned) :
    OperationSnapshot where
  currentHash := (disk.canonical planned.target).map workspace.platform.contentHash
  destinationHash := planned.destination.bind fun path => (disk.canonical path).map workspace.platform.contentHash
  stagedHash := match planned with
    | .replace .. => (disk.files (.asset directory (.stage index))).map workspace.platform.contentHash
    | _ => none
  backupHash := planned.preimage.map workspace.platform.contentHash
  state := planned.state workspace disk

theorem Planned.applied_of_done (done : planned.Done disk) :
    applied workspace disk (planned.operation workspace.platform) = true := by
  cases planned with
  | replace target preimage postimage =>
    rw [Done] at done
    simp [applied, operation, ValidatedOperation.target, done]
  | move source destination content =>
    rw [Done] at done
    simp [applied, operation, ValidatedOperation.target, done.1, done.2]
  | delete target preimage =>
    rw [Done] at done
    simp [applied, operation, ValidatedOperation.target, done]

/-- An operation that a look reports as waiting has its preimage in place. -/
theorem Planned.undone_of_state (images : planned.Undone disk ∨ planned.Done disk)
    (waiting : planned.state workspace disk = .stagedPostimageAvailable) : planned.Undone disk := by
  rcases images with undone | done
  · exact undone
  · rw [state, if_pos (applied_of_done done)] at waiting
    exact absurd waiting (by decide)

/-- A move or a delete that a look reports as applied has its postimage in place; for a
replacement the hashes decide. -/
theorem Planned.done_of_applied (images : planned.Undone disk ∨ planned.Done disk)
    (apart : planned.HashesApart workspace.platform)
    (found : applied workspace disk (planned.operation workspace.platform) = true) : planned.Done disk := by
  rcases images with undone | done
  · cases planned with
    | replace target preimage postimage =>
      rw [Undone] at undone
      simp only [applied, operation, ValidatedOperation.target, beq_iff_eq] at found
      obtain ⟨content, present, same⟩ := Option.map_eq_some_iff.mp found
      rw [Done, present, apart content (undone ▸ present) same]
    | move source destination content =>
      rw [Undone] at undone
      simp [applied, operation, ValidatedOperation.target, undone.1] at found
    | delete target preimage =>
      rw [Undone] at undone
      simp [applied, operation, ValidatedOperation.target, undone] at found
  · exact done

theorem Planned.classify_of (holds : planned.Holds disk directory index) :
    classify (planned.operation workspace.platform) (planned.snapshot workspace disk directory index).currentHash
      (planned.snapshot workspace disk directory index).destinationHash
      (planned.snapshot workspace disk directory index).stagedHash = .ok (planned.state workspace disk) := by
  rw [state]
  split
  · next found =>
    cases planned with
    | replace target preimage postimage =>
      simp only [applied, operation, ValidatedOperation.target, beq_iff_eq] at found
      simp [classify, operation, snapshot, Planned.target, found]
    | move source destination content =>
      simp only [applied, operation, ValidatedOperation.target, Bool.and_eq_true, beq_iff_eq] at found
      simp [classify, operation, snapshot, Planned.target, Planned.destination, found.1, found.2]
    | delete target preimage =>
      simp only [applied, operation, ValidatedOperation.target, beq_iff_eq] at found
      simp [classify, operation, snapshot, Planned.target, found]
  · next pending =>
    have undone : planned.Undone disk := by
      rcases holds.images with undone | done
      · exact undone
      · exact absurd (applied_of_done done) pending
    cases planned with
    | replace target preimage postimage =>
      have stage : disk.files (.asset directory (.stage index)) = some postimage := by
        rcases holds.supplied with ⟨_, stage⟩ | ⟨done, _⟩
        · exact stage
        · exact absurd (applied_of_done (show (Planned.replace target preimage postimage).Done disk from done)) pending
      simp only [applied, operation, ValidatedOperation.target, beq_iff_eq] at pending
      rw [Undone] at undone
      rw [undone] at pending
      simp [classify, operation, snapshot, Planned.target, undone, stage, pending]
    | move source destination content =>
      rw [Undone] at undone
      simp [classify, operation, snapshot, Planned.target, Planned.destination, undone.1, undone.2]
    | delete target preimage =>
      rw [Undone] at undone
      simp [classify, operation, snapshot, Planned.target, undone]

theorem verifyBackup_of (backup : disk.files (.asset directory (.backup index)) = planned.preimage) :
    verifyBackup workspace disk directory index (planned.operation workspace.platform) = .ok () := by
  rw [verifyBackup, Planned.operation_preimageHash, backup]
  cases planned.preimage with
  | none => rfl
  | some content => simp [demand]

/-- With its files in one of their shapes, only the directories around an operation can keep a
snapshot from reporting its state. -/
theorem snapshotOperation_eq (regular : ∀ path ∈ planned.paths, workspace.Regular path)
    (holds : planned.Holds disk directory index) :
    snapshotOperation workspace disk directory index (planned.operation workspace.platform) =
      (requireOperationParents workspace disk directory (planned.operation workspace.platform)).map
        fun _ => planned.snapshot workspace disk directory index := by
  have classified : classify (planned.operation workspace.platform) _ _ _ = _ := Planned.classify_of holds
  have verified : verifyBackup workspace disk directory index (planned.operation workspace.platform) = .ok () :=
    verifyBackup_of holds.backup
  have backup := holds.backup
  have hashed : ∀ path ∈ planned.paths, hashOptionalFile workspace disk (.canonical path) =
      .ok ((disk.canonical path).map workspace.platform.contentHash) :=
    fun path member => hashOptionalFile_of (regular path member).safeLeaf
  have asset : ∀ name, hashOptionalFile workspace disk (.asset directory name) =
      .ok ((disk.files (.asset directory name)).map workspace.platform.contentHash) :=
    fun name => hashOptionalFile_of rfl
  have target := hashed planned.target (Planned.target_mem_paths planned)
  rw [snapshotOperation]
  cases requireOperationParents workspace disk directory (planned.operation workspace.platform) with
  | error failure => rfl
  | ok _ =>
    cases planned with
    | replace path preimage postimage =>
      cases preimage <;>
        simp_all [Planned.operation, Planned.snapshot, Planned.target, Planned.destination, Planned.preimage,
          ValidatedOperation.target, ValidatedOperation.destination, ValidatedOperation.isReplace,
          ValidatedOperation.preimageHash, Except.map, bind, Except.bind]
    | move source destination content =>
      have arrival := hashed destination (by simp [Planned.paths, Planned.destination])
      simp_all [Planned.operation, Planned.snapshot, Planned.target, Planned.destination, Planned.preimage,
        ValidatedOperation.target, ValidatedOperation.destination, ValidatedOperation.isReplace,
        ValidatedOperation.preimageHash, Except.map, bind, Except.bind]
    | delete path preimage =>
      simp_all [Planned.operation, Planned.snapshot, Planned.target, Planned.destination, Planned.preimage,
        ValidatedOperation.target, ValidatedOperation.destination, ValidatedOperation.isReplace,
        ValidatedOperation.preimageHash, Except.map, bind, Except.bind]

end

/-! The intent of a list of planned operations. -/

/-- Operations the staging layer accepts, with the names of their transaction. -/
structure Plan (workspace : Workspace) where
  transactionId : String
  nonce : String
  directory : String
  operations : List Planned
  identified : transactionId ≠ ""
  nonceValid : isNonce nonce = true
  directoryValid : isTransactionDirectory directory = true
  nonempty : operations ≠ []
  canonical : ∀ path ∈ operations.flatMap Planned.paths, canonicalTarget path = some path
  regular : ∀ path ∈ operations.flatMap Planned.paths, workspace.Regular path
  distinct : ((operations.flatMap Planned.paths).map workspace.platform.pathKey).Nodup
  /-- No existing file that the operations address marks a context below the root. -/
  plain : ∀ planned ∈ operations, planned.target ∈ contextMarkers planned.target → planned.preimage = none

def intentTargets (platform : Platform) (directory : String) (index : Nat) : List Planned → List IntentTarget
  | [] => []
  | planned :: rest => planned.intentTarget platform directory index :: intentTargets platform directory (index + 1) rest

namespace Plan
variable {workspace : Workspace} (plan : Plan workspace)

def paths : List String := plan.operations.flatMap Planned.paths

def record : IntentRecord where
  transactionId := plan.transactionId
  nonce := plan.nonce
  targets := intentTargets workspace.platform plan.directory 0 plan.operations

def validated : ValidatedIntent where
  directory := plan.directory
  operations := plan.operations.map (Planned.operation workspace.platform)

end Plan

theorem ownedDirectory_assetPath {directory : String} (valid : isTransactionDirectory directory = true)
    (name : AssetName) (plain : ∀ index token, name ≠ .rebuild index token) (message : String) :
    ownedDirectory (assetPath directory name) name message = .ok directory := by
  have noSlash : '/' ∉ directory.toList := by
    intro member
    simp only [isTransactionDirectory, Bool.and_eq_true] at valid
    obtain ⟨⟨front, _⟩, digits⟩ := valid
    obtain ⟨rest, whole⟩ := isPrefixOf_iff_prefix.mp front
    rw [← whole] at member digits
    rcases mem_append.mp member with tag | inside
    · exact absurd tag (by decide)
    · exact absurd (all_eq_true.mp digits '/' inside) (by decide)
  have clean : ∀ part ∈ stagingParts ++ [directory.toList, name.text], '/' ∉ part := by
    intro part member
    simp only [stagingParts, cons_append, nil_append, mem_cons, not_mem_nil, or_false] at member
    rcases member with same | same | same | same | same <;> rw [same]
    · decide
    · decide
    · decide
    · exact noSlash
    · exact slash_not_mem_assetName name plain
  have parts := splitPath_joinPath (by simp [stagingParts]) clean
  rw [ownedDirectory, assetPath, parts]
  simp only [stagingParts, cons_append, nil_append, ne_eq, not_true_eq_false, if_false, String.ofList_toList,
    valid, beq_self_eq_true, Bool.and_true, if_true]

theorem Planned.intentTarget_target (platform : Platform) (directory : String) (index : Nat) (planned : Planned) :
    (planned.intentTarget platform directory index).target = planned.target := by
  cases planned <;> rfl

theorem Planned.intentTarget_destination (platform : Platform) (directory : String) (index : Nat) (planned : Planned) :
    (planned.intentTarget platform directory index).destination = planned.destination := by
  cases planned <;> rfl

section
variable {workspace : Workspace}

/-- Whether `_resolve_target` returns the path: from the cache, or because no parent of it is
a context of its own now. -/
def resolvable (workspace : Workspace) (cached : Bool) (disk : Disk) (path : String) : Bool :=
  cached || (workspace.resolves path && !nestedContext disk path)

theorem claimPaths_of {keys paths : List String} (fresh : (keys ++ paths.map workspace.platform.pathKey).Nodup) :
    claimPaths workspace keys paths = .ok (keys ++ paths.map workspace.platform.pathKey) := by
  induction paths generalizing keys with
  | nil => simp [claimPaths]
  | cons path rest ih =>
    rw [map_cons, append_cons] at fresh
    have absent : workspace.platform.pathKey path ∉ keys := fun member =>
      (nodup_append.mp (nodup_append.mp fresh).1).2.2 _ member _ mem_cons_self rfl
    have claimed := ih fresh
    simp only [claimPaths, demand, contains_eq_mem, decide_eq_false absent, Bool.not_false, if_true]
    show claimPaths workspace (keys ++ [workspace.platform.pathKey path]) rest = _
    rw [claimed, map_cons, ← append_cons]

variable {directory : String} {cached : Bool} {disk : Disk} {operations : List Planned}

theorem optionalDirectory_backup (valid : isTransactionDirectory directory = true) (index : Nat)
    (planned : Planned) (message : String) :
    optionalDirectory (planned.preimage.map fun _ => assetPath directory (.backup index)) (.backup index) message =
      .ok (planned.preimage.map fun _ => directory) := by
  cases planned.preimage with
  | none => rfl
  | some content =>
    rw [Option.map_some, optionalDirectory, ownedDirectory_assetPath valid _ (by simp)]
    rfl

theorem optionalDirectory_stage (valid : isTransactionDirectory directory = true) (index : Nat)
    (message : String) :
    optionalDirectory (some (assetPath directory (.stage index))) (.stage index) message = .ok (some directory) := by
  rw [optionalDirectory, ownedDirectory_assetPath valid _ (by simp)]
  rfl

variable {path : String} {planned : Planned}

theorem resolveTarget_of (canonical : canonicalTarget path = some path) :
    resolveTarget workspace cached disk path = if resolvable workspace cached disk path then .ok path
      else .error (.contextBoundary ("Path crosses nested context boundary: " ++ path)) := by
  rw [resolveTarget, canonical]
  rfl

theorem validateTarget_of (index : Nat)
    {keys : List String} {known : Option String} (valid : isTransactionDirectory directory = true)
    (canonical : ∀ path ∈ planned.paths, canonicalTarget path = some path)
    (fresh : (keys ++ planned.paths.map workspace.platform.pathKey).Nodup)
    (same : known = none ∨ known = some directory)
    (resolved : ∀ path ∈ planned.paths, resolvable workspace cached disk path = true) :
    validateTarget workspace cached disk index (planned.intentTarget workspace.platform directory index) known keys =
      .ok (planned.operation workspace.platform, directory, keys ++ planned.paths.map workspace.platform.pathKey) := by
  have claimed := claimPaths_of fresh
  have target : resolveTarget workspace cached disk planned.target = .ok planned.target := by
    rw [resolveTarget_of (canonical _ (Planned.target_mem_paths _)), if_pos (resolved _ (Planned.target_mem_paths _))]
  have backup := optionalDirectory_backup valid index planned
    "Intent backup path does not use the owned layout"
  have stage := optionalDirectory_stage valid index "Intent staged path does not use the owned layout"
  have known' : (known.isNone || known == some directory) = true := by
    rcases same with same | same <;> simp [same]
  cases planned with
  | replace path preimage postimage =>
    cases preimage <;>
    simp_all [validateTarget, Planned.intentTarget, Planned.operation, Planned.paths, Planned.target, Planned.destination,
      Planned.preimage, demand, bind, Except.bind, IntentTarget.operation]
  | move source destination content =>
    have arrival : resolveTarget workspace cached disk destination = .ok destination := by
      rw [resolveTarget_of (canonical _ (by simp [Planned.paths, Planned.destination])),
        if_pos (resolved _ (by simp [Planned.paths, Planned.destination]))]
    simp_all [validateTarget, Planned.intentTarget, Planned.operation, Planned.paths, Planned.target, Planned.destination,
      Planned.preimage, demand, bind, Except.bind, IntentTarget.operation, optionalDirectory]
  | delete path preimage =>
    simp_all [validateTarget, Planned.intentTarget, Planned.operation, Planned.paths, Planned.target, Planned.destination,
      Planned.preimage, demand, bind, Except.bind, IntentTarget.operation, optionalDirectory]

theorem validateTarget_unresolved (directory : String) (index : Nat)
    (keys : List String) (known : Option String)
    (canonical : ∀ path ∈ planned.paths, canonicalTarget path = some path) (member : path ∈ planned.paths) (blocked : resolvable workspace cached disk path = false) :
    ∃ failure, validateTarget workspace cached disk index (planned.intentTarget workspace.platform directory index) known
      keys = .error failure := by
  have unresolved : ∀ other ∈ planned.paths, resolvable workspace cached disk other = false →
      ∃ failure, resolveTarget workspace cached disk other = .error failure := by
    intro other inside closed
    rw [resolveTarget_of (canonical _ inside), if_neg (by simp [closed])]
    exact ⟨_, rfl⟩
  rw [validateTarget]
  cases target : resolveTarget workspace cached disk (planned.intentTarget workspace.platform directory index).target with
  | error failure => exact ⟨failure, rfl⟩
  | ok found =>
    have elsewhere : path ≠ planned.target := by
      intro same
      obtain ⟨failure, refused⟩ := unresolved path member blocked
      rw [Planned.intentTarget_target, ← same, refused] at target
      cases target
    rcases mem_cons.mp member with same | inside
    · exact absurd same elsewhere
    · obtain ⟨failure, refused⟩ := unresolved path member blocked
      have destination : planned.destination = some path := by
        cases found : planned.destination with
        | none => simp [found] at inside
        | some other => simp [found] at inside; rw [inside]
      simp only [Planned.intentTarget_destination, destination]
      cases planned with
      | replace _ _ _ => cases destination
      | delete _ _ => cases destination
      | move source arrival content =>
        simp only [bind, Except.bind, demand]
        split
        · exact ⟨_, rfl⟩
        split
        · exact ⟨_, rfl⟩
        split
        · exact ⟨_, rfl⟩
        split
        · exact ⟨_, rfl⟩
        split
        · exact ⟨_, rfl⟩
        split
        · exact ⟨_, rfl⟩
        simp only [refused]
        exact ⟨_, rfl⟩

theorem validateTargets_of (index : Nat) (keys : List String) (known : Option String) (valid : isTransactionDirectory directory = true)
    (canonical : ∀ path ∈ operations.flatMap Planned.paths, canonicalTarget path = some path)
    (fresh : (keys ++ (operations.flatMap Planned.paths).map workspace.platform.pathKey).Nodup)
    (same : known = none ∨ known = some directory)
    (resolved : ∀ path ∈ operations.flatMap Planned.paths, resolvable workspace cached disk path = true) :
    validateTargets workspace cached disk index known keys (intentTargets workspace.platform directory index operations) =
      .ok (operations.map (Planned.operation workspace.platform), if operations = [] then known else some directory) := by
  induction operations generalizing index keys known with
  | nil => rfl
  | cons planned rest ih =>
    rw [flatMap_cons] at canonical fresh resolved
    rw [map_append, ← append_assoc] at fresh
    have one := validateTarget_of index valid
      (fun path member => canonical path (mem_append_left _ member)) (nodup_append.mp fresh).1 same
      (fun path member => resolved path (mem_append_left _ member))
    have others := ih (index + 1) _ _ (fun path member => canonical path (mem_append_right _ member)) fresh
      (.inr rfl) (fun path member => resolved path (mem_append_right _ member))
    simp only [intentTargets, validateTargets, one, bind, Except.bind, others, map_cons]
    simp

theorem validateTargets_unresolved (directory : String) (index : Nat) (keys : List String) (known : Option String)
    (canonical : ∀ path ∈ operations.flatMap Planned.paths, canonicalTarget path = some path) (member : path ∈ operations.flatMap Planned.paths)
    (blocked : resolvable workspace cached disk path = false) :
    ∃ failure, validateTargets workspace cached disk index known keys
      (intentTargets workspace.platform directory index operations) = .error failure := by
  induction operations generalizing index keys known with
  | nil => exact absurd member not_mem_nil
  | cons planned rest ih =>
    rw [flatMap_cons] at canonical member
    simp only [intentTargets, validateTargets, bind, Except.bind]
    cases one : validateTarget workspace cached disk index (planned.intentTarget workspace.platform directory index)
      known keys with
    | error failure => exact ⟨failure, rfl⟩
    | ok found =>
      obtain ⟨operation, owned, claimed⟩ := found
      rcases mem_append.mp member with inside | inside
      · obtain ⟨failure, refused⟩ := validateTarget_unresolved directory index keys known
          (fun other within => canonical other (mem_append_left _ within)) inside blocked
        rw [refused] at one
        cases one
      · obtain ⟨failure, refused⟩ := ih (index + 1) claimed (some owned)
          (fun other within => canonical other (mem_append_right _ within)) inside
        simp only [refused]
        exact ⟨failure, rfl⟩

theorem mem_intentTargets {platform : Platform} {index : Nat}
    {item : IntentTarget} (member : item ∈ intentTargets platform directory index operations) :
    ∃ place, ∃ planned ∈ operations, item = planned.intentTarget platform directory place := by
  induction operations generalizing index with
  | nil => exact absurd member not_mem_nil
  | cons planned rest ih =>
    rcases mem_cons.mp member with same | inside
    · exact ⟨index, planned, mem_cons_self, same⟩
    · obtain ⟨place, other, within, same⟩ := ih inside
      exact ⟨place, other, mem_cons_of_mem _ within, same⟩

theorem assetPath_ne_empty (directory : String) (name : AssetName) : assetPath directory name ≠ "" := by
  intro empty
  have chars := congrArg String.toList empty
  rw [assetPath, joinPath, String.toList_ofList] at chars
  exact absurd chars (by simp [stagingParts, List.intercalate])

theorem ne_empty_of_canonical (canonical : canonicalTarget path = some path) : path ≠ "" := by
  intro empty
  rw [empty] at canonical
  exact absurd canonical (by decide)

theorem Planned.intentTarget_fieldsValid (platform : Platform) (directory : String) (index : Nat)
    (nonempty : ∀ path ∈ planned.paths, path ≠ "") :
    (planned.intentTarget platform directory index).fieldsValid = true := by
  have target := nonempty planned.target (Planned.target_mem_paths planned)
  have hash := platform.isContentHash_contentHash
  have asset := fun name => assetPath_ne_empty directory name
  cases planned with
  | replace path preimage postimage =>
    cases preimage <;>
      simp_all [Planned.intentTarget, IntentTarget.fieldsValid, Planned.preimage, Planned.target, hashed, filled]
  | move source destination content =>
    have arrival := nonempty destination (by simp [Planned.paths, Planned.destination])
    simp_all [Planned.intentTarget, IntentTarget.fieldsValid, Planned.preimage, Planned.target, hashed, filled]
  | delete path preimage =>
    simp_all [Planned.intentTarget, IntentTarget.fieldsValid, Planned.preimage, Planned.target, hashed, filled]

namespace Plan
variable (plan : Plan workspace) {disk : Disk}

theorem mem_paths {plan : Plan workspace} {planned : Planned} (member : planned ∈ plan.operations) {path : String}
    (inside : path ∈ planned.paths) : path ∈ plan.paths := mem_flatMap.mpr ⟨planned, member, inside⟩

theorem fieldsValid : plan.record.fieldsValid = true := by
  have targets : ∀ item ∈ plan.record.targets, item.fieldsValid = true := by
    intro item member
    obtain ⟨place, planned, inside, same⟩ := mem_intentTargets member
    rw [same]
    refine planned.intentTarget_fieldsValid _ _ _ fun path within => ne_empty_of_canonical ?_
    exact plan.canonical path (mem_paths inside within)
  have some : plan.record.targets ≠ [] := by
    obtain ⟨first, others, whole⟩ := exists_cons_of_ne_nil plan.nonempty
    rw [record, whole]
    exact cons_ne_nil _ _
  simp only [IntentRecord.fieldsValid, Bool.and_eq_true, bne_iff_ne, ne_eq, Bool.not_eq_true', isEmpty_eq_false_iff,
    all_eq_true]
  exact ⟨⟨⟨plan.identified, plan.nonceValid⟩, some⟩, targets⟩

theorem validatedIntentPaths_of {cached : Bool} (resolved : ∀ path ∈ plan.paths, resolvable workspace cached disk path = true) :
    validatedIntentPaths workspace cached disk plan.record = .ok plan.validated := by
  have targets := validateTargets_of 0 [] none plan.directoryValid plan.canonical plan.distinct (.inl rfl) resolved
  simp only [validatedIntentPaths, record, targets, bind, Except.bind, if_neg plan.nonempty]
  rfl

theorem loadIntent_iff {cached : Bool} (published : disk.files .intent = some (encodeIntent plan.record))
    {record : IntentRecord} {validated : ValidatedIntent} :
    loadIntent workspace cached disk = .ok (record, validated) ↔
      record = plan.record ∧ validated = plan.validated ∧
        ∀ path ∈ plan.paths, resolvable workspace cached disk path = true := by
  have loaded : loadIntent workspace cached disk =
      (validatedIntentPaths workspace cached disk plan.record).map fun validated => (plan.record, validated) := by
    simp only [loadIntent, published, decodeIntent_encodeIntent plan.fieldsValid]
  rw [loaded]
  by_cases resolved : ∀ path ∈ plan.paths, resolvable workspace cached disk path = true
  · rw [plan.validatedIntentPaths_of resolved]
    constructor
    · intro same
      cases same
      exact ⟨rfl, rfl, resolved⟩
    · intro ⟨sameRecord, sameValidated, _⟩
      rw [sameRecord, sameValidated]
      rfl
  · obtain ⟨path, member, blocked⟩ : ∃ path ∈ plan.paths, resolvable workspace cached disk path = false := by
      simpa using resolved
    obtain ⟨failure, refused⟩ := validateTargets_unresolved plan.directory 0 [] none plan.canonical member blocked
    have ended : validatedIntentPaths workspace cached disk plan.record = .error failure := by
      simp only [validatedIntentPaths, Plan.record, refused, bind, Except.bind]
    rw [ended]
    constructor
    · intro same
      cases same
    · intro ⟨_, _, open_⟩
      rw [open_ path member] at blocked
      cases blocked

end Plan
end
end Workctx.Staging
