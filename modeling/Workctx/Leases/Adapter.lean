import Workctx.Concurrent.Discipline

/-! The adapter lock as a client of the installation root. A record is inspected, compared and renamed or
removed in steps of their own. -/

namespace Workctx.Leases
open Workctx.Concurrent

/-- `LockMetadata`; the times are in nanoseconds. -/
structure LockMetadata where
  pid : Nat
  hostname : String
  sessionId : String
  toolVersion : String
  acquiredAt : Int
  heartbeatAt : Int
  nonce : Nat
deriving DecidableEq

/-- The bytes of a file: those `to_bytes` makes of a record, or ones `from_bytes` rejects. -/
inductive Content where
  | record (metadata : LockMetadata)
  | other (text : String)
deriving DecidableEq

def Content.empty : Content := .other ""

structure LockFile where
  identity : Nat
  content : Content
  modifiedNs : Int
deriving DecidableEq

def LockFile.nonce (file : LockFile) : Option Nat :=
  match file.content with
  | .record metadata => some metadata.nonce
  | .other _ => none

/-- `_same_snapshot`; no snapshot for a file that does not exist. -/
def sameSnapshot (left right : Option LockFile) : Bool :=
  (left.map fun file => (file.identity, file.content)) == right.map fun file => (file.identity, file.content)

/-- The evidence id in the name of an archive: the nonce of the record, or the hash of what is none. -/
inductive Evidence where
  | nonce (nonce : Nat)
  | hash (content : Content)
deriving DecidableEq

inductive Path where
  | lock
  | archive (stamp : Int) (evidence : Evidence)
deriving DecidableEq

/-- A file for as long as anybody has it open, under whatever name. -/
inductive Handle where
  | found (path : Path)
  | made (number : Nat)
deriving DecidableEq

/-- What an acquisition takes a record for stale by. -/
structure Judgement where
  hostname : String
  now : Int
  staleAfter : Int
  /-- `_process_exists` -/
  processExists : Nat → Bool

/-- What was done to the lock path, as a history that no action reads. -/
inductive Change where
  | acquired (nonce : Nat)
  | archived (judgement : Judgement) (judged moved : LockFile)
  | replaced (nonce : Nat) (old : Option LockFile)
  | removed (nonce : Nat) (old : LockFile)

/-- The installation root. No action reads what a file is created for, or how often the file at the lock path changed. -/
structure Root where
  names : Path → Option Handle
  objects : Handle → LockFile
  intended : Handle → Content
  next : Nat
  drawn : Nat
  version : Nat
  history : List Change

def Root.lookup (root : Root) (path : Path) : Option LockFile := (root.names path).map root.objects

/-- What the surroundings decide: the numbers and the times of the files that are created, and the texts of the parser. -/
structure Site where
  identity : Nat → Nat
  createdNs : Nat → Int
  writtenNs : Handle → Int
  casefold : String → String
  defect : String → String

inductive LockError where
  | held (message : String)
  | lock (detail : String)
  | fence (message : String)
  | unsafeFilesystem (message : String)
  | fileExists (path : Path)
  | fileNotFound (path : Path)
deriving DecidableEq

/-- A rename or a removal at the lock path says which of its contents was compared last. -/
inductive Note where
  | plain
  | bound (version : Nat)

abbrev LockClient := Client Root Note LockError

section
variable (site : Site)

/-! Staleness. -/

structure LockInspection where
  live : Bool
  stale : Bool
  invalid : Bool
  metadata : Option LockMetadata
  detail : Option String

def snapshotIsExpired (judgement : Judgement) (snapshot : LockFile) : Bool :=
  decide (judgement.staleAfter < judgement.now - snapshot.modifiedNs)

/-- `inspect_adapter_lock` of a file that exists -/
def inspectAdapterLock (judgement : Judgement) (snapshot : LockFile) : LockInspection :=
  match snapshot.content with
  | .other text =>
    let stale := snapshotIsExpired judgement snapshot
    { live := false, stale, invalid := !stale, metadata := none, detail := some (site.defect text) }
  | .record metadata =>
    let ownerDead := site.casefold metadata.hostname == site.casefold judgement.hostname && !judgement.processExists metadata.pid
    let stale := ownerDead || decide (judgement.staleAfter < judgement.now - metadata.heartbeatAt)
    { live := !stale, stale, invalid := false, metadata := some metadata, detail := none }

/-! File steps. -/

/-- `inspect_file`, with the version of the lock path at that moment. -/
def inspectFile (path : Path) : LockClient (Option LockFile × Nat) :=
  Client.observe .plain fun root => (root.lookup path, root.version)

/-- `secrets.token_hex`, which gives no value twice. -/
def drawNonce : LockClient Nat :=
  .act .plain (fun root => { root with drawn := root.drawn + 1 }) fun root => .ret root.drawn

def Root.create (root : Root) (content : Content) (file : LockFile) : Root :=
  { root with
    objects := Function.update root.objects (.made root.next) file
    intended := Function.update root.intended (.made root.next) content
    next := root.next + 1 }

def Root.link (root : Root) (path : Path) (handle : Option Handle) : Root :=
  { root with
    names := Function.update root.names path handle
    version := if path = .lock then root.version + 1 else root.version }

/-- `os.open` with `O_CREAT | O_EXCL` -/
def openExclusive (path : Path) (content : Content) : LockClient Handle :=
  Client.transact .plain fun root =>
    match root.names path with
    | some _ => .error (.fileExists path)
    | none =>
      let file := ⟨site.identity root.next, .empty, site.createdNs root.next⟩
      .ok (.made root.next, (root.create content file).link path (some (.made root.next)))

/-- `_write_descriptor`, under whatever name the file has by now. -/
def writeDescriptor (handle : Handle) (content : Content) : LockClient Unit :=
  .act .plain (fun root => { root with
    objects := Function.update root.objects handle ⟨(root.objects handle).identity, content, site.writtenNs handle⟩
    version := if root.names .lock = some handle then root.version + 1 else root.version }) fun _ => .ret ()

def writeExclusive (path : Path) (content : Content) : LockClient LockFile := do
  let handle ← openExclusive site path content
  let opened ← Client.observe .plain fun root => (root.objects handle).identity
  let linked ← inspectFile path
  match linked.1 with
  | none => .raise (.fileNotFound path)
  | some linked => do
    .ensure (opened == linked.identity) (.unsafeFilesystem "Exclusive file identity changed after creation")
    writeDescriptor site handle content
    let snapshot ← inspectFile path
    match snapshot.1 with
    | none => .raise (.unsafeFilesystem "Exclusive write postcondition did not hold")
    | some snapshot => do
      .ensure (snapshot.content == content) (.unsafeFilesystem "Exclusive write postcondition did not hold")
      .ret snapshot

/-- `os.unlink` -/
def removeName (path : Path) (note : Note) (log : LockFile → List Change) : LockClient Unit :=
  Client.transact note fun root =>
    match root.lookup path with
    | none => .error (.fileNotFound path)
    | some file => .ok ((), { root.link path none with history := log file ++ root.history })

/-- `unlink` of the expected file -/
def unlink (path : Path) (expected : LockFile) (log : LockFile → List Change) : LockClient Unit := do
  let observed ← inspectFile path
  .ensure (sameSnapshot observed.1 (some expected)) (.unsafeFilesystem "Unlink precondition changed")
  let current ← inspectFile path
  .ensure (sameSnapshot current.1 (some expected)) (.unsafeFilesystem "File changed immediately before unlink")
  removeName path (if path = .lock then .bound current.2 else .plain) log

/-! Takeovers. -/

/-- `os.replace` of the lock to its archive -/
def renameToArchive (archive : Path) (judgement : Judgement) (judged : LockFile) (version : Nat) : LockClient Unit :=
  Client.transact (.bound version) fun root =>
    match root.names .lock with
    | none => .error (.fileNotFound .lock)
    | some handle => .ok ((), { (root.link archive (some handle)).link .lock none with
        history := .archived judgement judged (root.objects handle) :: root.history })

/-- `_replace_bound` of the lock by its archive -/
def archiveBound (archive : Path) (judgement : Judgement) (judged source reservation : LockFile) : LockClient Unit := do
  let currentSource ← inspectFile .lock
  let currentTarget ← inspectFile archive
  .ensure (sameSnapshot currentSource.1 (some source)) (.unsafeFilesystem "Replacement source precondition changed")
  .ensure (sameSnapshot currentTarget.1 (some reservation)) (.unsafeFilesystem "Replacement target precondition changed")
  renameToArchive archive judgement judged currentSource.2
  let result ← inspectFile archive
  .ensure (sameSnapshot result.1 (some source)) (.unsafeFilesystem "Atomic replacement postcondition did not hold")

def giveUpReservation (archive : Path) (reservation : LockFile) (error : LockError) : LockClient Unit := do
  let current ← inspectFile archive
  if sameSnapshot current.1 (some reservation) then do
    unlink archive reservation fun _ => []
    .raise error
  else .raise error

/-- `move` of the lock that was judged stale to its archive -/
def move (archive : Path) (judgement : Judgement) (judged : LockFile) : LockClient Unit := do
  let source ← inspectFile .lock
  match source.1 with
  | none => .raise (.fileNotFound .lock)
  | some source => do
    .ensure (sameSnapshot (some source) (some judged)) (.unsafeFilesystem "Move source precondition changed")
    let target ← inspectFile archive
    .ensure target.1.isNone (.fileExists archive)
    let reservation ← writeExclusive site archive .empty
    (archiveBound archive judgement judged source reservation).handle (giveUpReservation archive reservation)

/-! The lock. -/

structure AdapterLock where
  metadata : LockMetadata
  snapshot : LockFile
  released : Bool

/-- Who acquires a lock and when; what `_process_exists` answers may differ from attempt to attempt. -/
structure Caller where
  pid : Nat
  hostname : String
  sessionId : String
  toolVersion : String
  now : Int
  staleAfter : Int
  processExists : Nat → Nat → Bool

def Caller.judgement (caller : Caller) (attempt : Nat) : Judgement :=
  ⟨caller.hostname, caller.now, caller.staleAfter, caller.processExists attempt⟩

def Caller.metadata (caller : Caller) (nonce : Nat) : LockMetadata :=
  { pid := caller.pid
    hostname := caller.hostname
    sessionId := caller.sessionId
    toolVersion := caller.toolVersion
    acquiredAt := caller.now
    heartbeatAt := caller.now
    nonce }

def takeOver (caller : Caller) (attempt : Nat) : LockClient Unit := do
  let found ← inspectFile .lock
  match found.1 with
  | none => .raise (.lock "Adapter lock could not be assessed safely")
  | some snapshot =>
    let inspection := inspectAdapterLock site (caller.judgement attempt) snapshot
    if inspection.invalid then .raise (.lock (inspection.detail.getD "Invalid adapter lock"))
    else if inspection.live then .raise (.held "Another writer holds the project adapter lock")
    else if !inspection.stale then .raise (.lock "Adapter lock could not be assessed safely")
    else
      let evidence := match inspection.metadata with
        | some metadata => Evidence.nonce metadata.nonce
        | none => .hash snapshot.content
      (move site (.archive caller.now evidence) (caller.judgement attempt) snapshot).handle fun
        | .fileExists _ => .ret ()
        | .fileNotFound _ => .ret ()
        | error => .raise error

/-- `write_exclusive` of the lock; none where it exists. -/
def claimLock (metadata : LockMetadata) : LockClient (Option LockFile) :=
  (do
    let snapshot ← writeExclusive site .lock (.record metadata)
    .ret (some snapshot)).handle fun
      | .fileExists _ => .ret none
      | error => .raise error

/-- The attempts of `acquire` -/
def acquireAttempts (caller : Caller) : Nat → LockClient AdapterLock
  | 0 => .raise (.held "Adapter lock acquisition did not converge")
  | attempts + 1 => do
    let nonce ← drawNonce
    let claimed ← claimLock site (caller.metadata nonce)
    match claimed with
    | some snapshot => .ret ⟨caller.metadata nonce, snapshot, false⟩
    | none => do
      takeOver site caller attempts
      acquireAttempts caller attempts

def acquire (caller : Caller) : LockClient AdapterLock := acquireAttempts site caller 8

def verify (lock : AdapterLock) : LockClient Unit := do
  .ensure (!lock.released) (.fence "Adapter lock was already released")
  let current ← inspectFile .lock
  match current.1 with
  | none => .raise (.fence "Adapter lock identity or bytes changed")
  | some file => do
    .ensure (sameSnapshot (some file) (some lock.snapshot)) (.fence "Adapter lock identity or bytes changed")
    match file.content with
    | .other _ => .raise (.fence "Adapter lock metadata became invalid")
    | .record metadata => .ensure (metadata.nonce == lock.metadata.nonce) (.fence "Adapter lock nonce changed")

/-- `write_exclusive` of the staged record. Its name has the nonce in it, so that nobody else has a name for it, and every
heartbeat takes its own away again. -/
def stageHeartbeat (updated : LockMetadata) : LockClient (Handle × LockFile) :=
  .act .plain (fun root => root.create (.record updated)
    ⟨site.identity root.next, .record updated, site.writtenNs (.made root.next)⟩) fun root =>
      .ret (.made root.next, ⟨site.identity root.next, .record updated, site.writtenNs (.made root.next)⟩)

/-- `os.replace` of the lock by the staged record -/
def renameToLock (staged : Handle) (nonce version : Nat) : LockClient Unit :=
  .act (.bound version) (fun root => { root.link .lock (some staged) with
    history := .replaced nonce (root.lookup .lock) :: root.history }) fun _ => .ret ()

def heartbeat (lock : AdapterLock) (now : Int) : LockClient AdapterLock := do
  verify lock
  let updated := { lock.metadata with heartbeatAt := now }
  let staged ← stageHeartbeat site updated
  let target ← inspectFile .lock
  .ensure (sameSnapshot target.1 (some lock.snapshot)) (.unsafeFilesystem "Replacement target precondition changed")
  let currentTarget ← inspectFile .lock
  .ensure (sameSnapshot currentTarget.1 (some lock.snapshot)) (.unsafeFilesystem "Replacement target precondition changed")
  renameToLock staged.1 lock.metadata.nonce currentTarget.2
  let result ← inspectFile .lock
  match result.1 with
  | none => .raise (.unsafeFilesystem "Atomic replacement postcondition did not hold")
  | some snapshot => do
    .ensure (sameSnapshot (some snapshot) (some staged.2)) (.unsafeFilesystem "Atomic replacement postcondition did not hold")
    .ret { lock with metadata := updated, snapshot := snapshot }

def release (lock : AdapterLock) : LockClient AdapterLock :=
  if lock.released then .ret lock
  else do
    verify lock
    unlink .lock lock.snapshot fun old => [.removed lock.metadata.nonce old]
    .ret { lock with released := true }

/-! Sessions. -/

inductive Use where
  | verify
  | heartbeat (now : Int)
  | release

def Use.perform (lock : AdapterLock) : Use → LockClient AdapterLock
  | .verify => do
    Leases.verify lock
    .ret lock
  | .heartbeat now => Leases.heartbeat site lock now
  | .release => Leases.release lock

def performAll (lock : AdapterLock) : List Use → LockClient Unit
  | [] => .ret ()
  | use :: rest => do
    let later ← (use.perform site lock).handle fun _ => (.ret lock : LockClient AdapterLock)
    performAll later rest

def session (caller : Caller) (uses : List Use) : LockClient Unit := do
  let lock ← acquire site caller
  Client.act .plain (fun root => { root with history := .acquired lock.metadata.nonce :: root.history }) fun _ => .ret ()
  performAll site lock uses

def Root.start (files : Path → Option LockFile) (drawn : Nat) : Root :=
  { names := fun path => (files path).map fun _ => .found path
    objects := fun
      | .found path => (files path).getD ⟨0, .empty, 0⟩
      | .made _ => ⟨0, .empty, 0⟩
    intended := fun
      | .found path => ((files path).getD ⟨0, .empty, 0⟩).content
      | .made _ => .empty
    next := 0
    drawn
    version := 0
    history := [] }

def sessions {ι : Type} (callers : ι → Caller × List Use) (root : Root) : Pool ι Root Note LockError Unit :=
  ⟨fun i => session site (callers i).1 (callers i).2, root⟩

end
end Workctx.Leases
