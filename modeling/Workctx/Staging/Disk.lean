import Workctx.Durable.Triple
import Workctx.Staging.Intent
import Workctx.Staging.Paths

/-! The files of a context that the engine reads and writes, the durable steps on them, and
the failures it raises. -/

namespace Workctx.Staging
open Workctx.Durable Workctx.Text Workctx.Domain

/-- The files of a transaction directory. -/
inductive AssetName where
  | stage (index : Nat)
  | backup (index : Nat)
  | rollback (index : Nat)
  | rebuild (index : Nat) (token : String)
  | completeIntent
deriving DecidableEq

inductive File where
  | canonical (path : String)
  | asset (directory : String) (name : AssetName)
  | intent
deriving DecidableEq

/-- The ledger is kept as its verified events; the ledger module relates them to its bytes. -/
structure Disk where
  files : File → Option Bytes
  directories : String → Bool
  lock : Option String
  ledger : List AuditEvent

/-- The exceptions of the staging layer and the engine, with their messages. -/
inductive Failure where
  | contextBoundary (message : String)
  | staging (message : String)
  | recoveryRequired (message : String)
  | recoverableReplace (message : String)
  | invalidIntent (message : String)
  | invalidValue (message : String)
  | lockFence (message : String)
  | lockHeld
  | permission
  | fileNotFound
  | fileExists
  | otherOs
  | ledgerIntegrity
  | proposalValidation
  | duplicateProposal
  | staleRevision
  | preimageChanged
  | recoveryPending
  | transactionConflict (code : String)
  | postconditionRollback
deriving DecidableEq

/-- What a disturbed step can leave: a beginning of the bytes of a write, or some of the files
of a directory that is being removed. -/
inductive Torn where
  | written (length : Nat)
  | kept (keep : AssetName → Bool)

abbrev Action := Program Disk Torn Failure

/-- What does not change while the engine is the only writer: the platform, the retry policy,
and the shape of the directory tree around the files. -/
structure Workspace where
  platform : Platform
  maxAttempts : Nat
  positive : 0 < maxAttempts
  /-- The path resolves inside its zone. -/
  resolves : String → Bool
  /-- The parent is an existing directory. -/
  hasParent : String → Bool
  /-- No parent is a link. -/
  plainParents : String → Bool
  /-- The parent lies on the volume of the staging area. -/
  sameVolume : String → Bool
  /-- The leaf is neither a link nor a directory. -/
  safeLeaf : String → Bool

/-! Names. -/

def padded (index : Nat) : List Char :=
  let digits := Nat.toDigits 10 index
  List.replicate (8 - digits.length) '0' ++ digits

def AssetName.text : AssetName → List Char
  | .stage index => padded index ++ ".stage".toList
  | .backup index => padded index ++ ".backup".toList
  | .rollback index => padded index ++ ".rollback".toList
  | .rebuild index token => padded index ++ ".rebuild-".toList ++ token.toList ++ ".tmp".toList
  | .completeIntent => "intent.complete.tmp".toList

def stagingParts : List (List Char) := ["98_state".toList, "staging".toList, "transactions".toList]

def assetPath (directory : String) (name : AssetName) : String :=
  joinPath (stagingParts ++ [directory.toList, name.text])

def File.name : File → String
  | .canonical path => String.ofList ((splitPath path).getLastD [])
  | .asset _ name => String.ofList name.text
  | .intent => "intent.json"

/-! Reading. -/

def Disk.canonical (disk : Disk) (path : String) : Option Bytes := disk.files (.canonical path)

def Disk.set (disk : Disk) (file : File) (content : Option Bytes) : Disk :=
  { disk with files := Function.update disk.files file content }

variable (workspace : Workspace)

def nestedContext (disk : Disk) (path : String) : Bool :=
  (contextMarkers path).any fun marker => (disk.canonical marker).isSome

/-- `_require_plain_parent_chain` for a canonical path. -/
def parentsPlain (disk : Disk) (path : String) : Bool :=
  workspace.hasParent path && workspace.plainParents path && !nestedContext disk path

/-- `_target_parent_is_usable` -/
def parentUsable (path : String) : Bool := workspace.hasParent path && workspace.sameVolume path

def File.safe (file : File) : Bool :=
  match file with
  | .canonical path => workspace.safeLeaf path
  | _ => true

/-- `_hash_optional_regular_file` -/
def hashOptionalFile (disk : Disk) (file : File) : Except Failure (Option String) :=
  if file.safe workspace then .ok ((disk.files file).map workspace.platform.contentHash)
  else .error (.contextBoundary ("Path must be a regular file: " ++ file.name))

def readRegularFile (disk : Disk) (file : File) : Except Failure Bytes :=
  if file.safe workspace then
    match disk.files file with
    | some content => .ok content
    | none => .error (.contextBoundary ("Required file is missing: " ++ file.name))
  else .error (.contextBoundary ("Path must be a regular file: " ++ file.name))

def revalidateOwnedFile (disk : Disk) (file : File) (allowMissing : Bool) : Except Failure Unit :=
  let parents := match file with
    | .canonical path => parentsPlain workspace disk path
    | .asset directory _ => disk.directories directory
    | .intent => true
  if !parents then .error (.contextBoundary ("File parent must be a directory: " ++ file.name))
  else if !file.safe workspace then .error (.contextBoundary ("Path must be a regular file: " ++ file.name))
  else if !allowMissing && (disk.files file).isNone then
    .error (.contextBoundary ("Required file is missing: " ++ file.name))
  else .ok ()

/-- `_resolve_target`. A path resolved earlier under the same lease is taken from the cache. -/
def resolveTarget (cached : Bool) (disk : Disk) (raw : String) : Except Failure String :=
  match canonicalTarget raw with
  | none => .error (.contextBoundary ("Path is outside the allowed context zone: " ++ raw))
  | some path =>
    if cached || (workspace.resolves path && !nestedContext disk path) then .ok path
    else .error (.contextBoundary ("Path crosses nested context boundary: " ++ path))

/-! Durable steps. -/

def writeStep (file : File) (payload : Bytes) : Step Disk Torn where
  effect disk := disk.set file (some payload)
  torn how disk := match how with
    | .written length => disk.set file (some (payload.take length))
    | .kept _ => disk

def replaceStep (source target : File) : Step Disk Torn :=
  .atomic fun disk => (disk.set target (disk.files source)).set source none

def unlinkStep (file : File) : Step Disk Torn := .atomic fun disk => disk.set file none

def mkdirStep (directory : String) : Step Disk Torn :=
  .atomic fun disk => { disk with directories := Function.update disk.directories directory true }

/-- `shutil.rmtree` on a transaction directory. -/
def rmtreeStep (directory : String) : Step Disk Torn where
  effect disk := { disk with
    files := fun file => match file with
      | .asset other name => if other = directory then none else disk.files (.asset other name)
      | file => disk.files file
    directories := Function.update disk.directories directory false }
  torn how disk := match how with
    | .kept keep => { disk with
        files := fun file => match file with
          | .asset other name => if other = directory && !keep name then none else disk.files (.asset other name)
          | file => disk.files file }
    | .written _ => disk

/-- A durable step on a file nothing of this model reads. -/
def scratchStep : Step Disk Torn := .atomic id

@[simp] theorem set_files_self (disk : Disk) (file : File) (content : Option Bytes) :
    (disk.set file content).files file = content := Function.update_self ..

theorem set_files_other (disk : Disk) {file other : File} (apart : other ≠ file) (content : Option Bytes) :
    (disk.set file content).files other = disk.files other := Function.update_of_ne apart ..

@[simp] theorem set_directories (disk : Disk) (file : File) (content : Option Bytes) :
    (disk.set file content).directories = disk.directories := rfl

@[simp] theorem set_lock (disk : Disk) (file : File) (content : Option Bytes) :
    (disk.set file content).lock = disk.lock := rfl

@[simp] theorem set_ledger (disk : Disk) (file : File) (content : Option Bytes) :
    (disk.set file content).ledger = disk.ledger := rfl

/-! The names of the assets. -/

theorem slash_not_mem_padded (index : Nat) : '/' ∉ padded index := by
  intro member
  rcases List.mem_append.mp member with zero | digit
  · exact absurd (List.eq_of_mem_replicate zero) (by decide)
  · exact absurd (Json.isDigit_of_mem_toDigits digit) (by decide)

theorem slash_not_mem_assetName (name : AssetName) (plain : ∀ index token, name ≠ .rebuild index token) :
    '/' ∉ name.text := by
  cases name with
  | stage index =>
    intro member
    exact (List.mem_append.mp member).elim (slash_not_mem_padded index) (by decide)
  | backup index =>
    intro member
    exact (List.mem_append.mp member).elim (slash_not_mem_padded index) (by decide)
  | rollback index =>
    intro member
    exact (List.mem_append.mp member).elim (slash_not_mem_padded index) (by decide)
  | rebuild index token => exact absurd rfl (plain index token)
  | completeIntent => decide

end Workctx.Staging
