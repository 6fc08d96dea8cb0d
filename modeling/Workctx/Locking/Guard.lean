import Workctx.Concurrent.Client
import Workctx.Concurrent.Directory

/-! The guard of the lock directory: contenders announce themselves, draw tickets and wait for the
smaller ones. Every file step is an action of its own; a process may stop at any of them, and its
entries are removed by the others. -/

namespace Workctx.Locking
open Workctx.Concurrent

structure Process where
  hostname : String
  pid : Nat
deriving DecidableEq

inductive Kind where
  | choosing
  | ticket
deriving DecidableEq

/-- The names in the staging directory, by the nonce in them. -/
inductive GuardName where
  | entry (kind : Kind) (nonce : Nat)
  | cancelled (kind : Kind) (nonce : Nat)
deriving DecidableEq

structure GuardMetadata where
  pid : Nat
  hostname : String
  acquiredAt : Nat
  nonce : Nat
  ticket : Nat
deriving DecidableEq

/-- A file as a snapshot sees it; it has no metadata until its content is written. -/
structure GuardFile where
  metadata : Option GuardMetadata
  modifiedAt : Nat
deriving DecidableEq

/-- Where a contender is, as a history that no action reads. With the start of its draw it holds
the tickets that were published then. -/
inductive Stage where
  | before
  | created
  | announced
  | numbering (floor : Nat → Option Nat)
  | ticketed (ticket : Nat)
  | published (ticket : Nat)
  | inside (ticket : Nat)
  | left

/-- The staging directory, the clock and the processes. The surroundings say which files cannot be
read or removed for now, which names a listing may pass over, and whether the disk is full. -/
structure GuardWorld where
  files : Directory GuardName GuardFile
  now : Nat
  alive : Process → Bool
  denied : GuardName → Bool
  unlisted : GuardName → Bool
  diskFull : Bool
  stage : Nat → Stage

inductive LockError where
  | held (message : String)
  | lock (message : String)
  | os
  | stopped
deriving DecidableEq

abbrev GuardClient := Client GuardWorld Unit LockError

def guardAttempts : Nat := 20

def replaceAttempts : Nat := 10

/-- `_GUARD_MALFORMED_STALE_AFTER`, in microseconds. -/
def malformedStaleAfter : Nat := 3600 * 1000000

def GuardWorld.mark (world : GuardWorld) (nonce : Nat) (stage : Stage) : GuardWorld :=
  { world with stage := Function.update world.stage nonce stage }

section
variable (caller : Process) {α : Type}

/-- One action of a process; a process that has stopped takes none. -/
def perform (action : GuardWorld → α × GuardWorld) : GuardClient α :=
  .act () (fun world => if world.alive caller then (action world).2 else world) fun world =>
    if world.alive caller then .ret (action world).1 else .raise .stopped

def look (view : GuardWorld → α) : GuardClient α := perform caller fun world => (view world, world)

/-! Files. -/

/-- `_read_snapshot`; none when the file cannot be read for now. -/
def readSnapshot (name : GuardName) : GuardClient (Option (Option GuardFile)) :=
  look caller fun world => if world.denied name then none else some (world.files.get name)

/-- The attempts of `_read_guard_snapshot_with_retry`; none where it raises that the file is held. -/
def readGuardSnapshotWithRetry (name : GuardName) : Nat → GuardClient (Option (Option GuardFile))
  | 0 => .ret none
  | attempts + 1 => do
    let snapshot ← readSnapshot caller name
    match snapshot with
    | some found => .ret (some found)
    | none => readGuardSnapshotWithRetry name attempts

/-- `_read_guard_snapshot_with_retry` -/
def readGuardSnapshot (name : GuardName) : GuardClient (Option GuardFile) := do
  let snapshot ← readGuardSnapshotWithRetry caller name guardAttempts
  match snapshot with
  | some found => .ret found
  | none => .raise (.held "A context lock mutation guard entry is temporarily unreadable")

inductive Unlinked where
  | removed
  | missing
  | refused
deriving DecidableEq

def unlink (name : GuardName) : GuardClient Unlinked :=
  perform caller fun world =>
    if world.denied name then (.refused, world)
    else match world.files.get name with
      | none => (.missing, world)
      | some _ => (.removed, { world with files := world.files.erase name })

/-- The attempts of `_unlink_with_retry`. -/
def unlinkWithRetry (name : GuardName) : Nat → GuardClient Unlinked
  | 0 => .ret .refused
  | attempts + 1 => do
    let unlinked ← unlink caller name
    match unlinked with
    | .refused => unlinkWithRetry name attempts
    | ended => .ret ended

def unlinkIfUnchanged (name : GuardName) (expected : GuardFile) : GuardClient Bool := do
  let snapshot ← readSnapshot caller name
  match snapshot with
  | none => .raise .os
  | some current =>
    if current = some expected then do
      let unlinked ← unlink caller name
      match unlinked with
      | .removed => .ret true
      | .missing => .ret false
      | .refused => .raise .os
    else .ret false

/-- The attempts of `_unlink_guard_snapshot_with_retry`. -/
def unlinkGuardSnapshotWithRetry (name : GuardName) (expected : GuardFile) : Nat → GuardClient Bool
  | 0 => .ret false
  | attempts + 1 => do
    let current ← readGuardSnapshot caller name
    match current with
    | none => .ret true
    | some found =>
      if found = expected then do
        let unlinked ← unlink caller name
        match unlinked with
        | .refused => unlinkGuardSnapshotWithRetry name expected attempts
        | _ => .ret true
      else .raise (.held "A mutation guard entry changed during cancellation cleanup")

/-- The file with its content, if it is still there under its name. -/
def GuardWorld.fill (world : GuardWorld) (name : GuardName) (metadata : GuardMetadata) : GuardWorld :=
  match world.files.get name with
  | none => world
  | some _ => { world with files := world.files.put name ⟨some metadata, world.now⟩ }

variable (nonce : Nat)

/-- `_write_exclusive`: none when the file is there already. The stages are those of a contender
that has created the file, and that has written it. -/
def writeExclusive (name : GuardName) (metadata : GuardMetadata) (created written : Stage → Stage) :
    GuardClient (Option Unit) := do
  let opened ← perform caller fun world =>
    match world.files.get name with
    | some _ => (false, world)
    | none => (true, { world with files := world.files.put name ⟨none, world.now⟩ }.mark nonce (created (world.stage nonce)))
  if opened then do
    let filled ← perform caller fun world =>
      if world.diskFull then (false, world.mark nonce .left)
      else (true, (world.fill name metadata).mark nonce (written (world.stage nonce)))
    if filled then .ret (some ())
    else do
      let _ ← unlink caller name
      .raise .os
  else .ret none

/-! Entries. -/

def matchesName (kind : Kind) (name : Nat) (metadata : GuardMetadata) : Bool :=
  metadata.nonce == name && match kind with
    | .choosing => metadata.ticket == 0
    | .ticket => decide (1 ≤ metadata.ticket)

def decodeEntry (kind : Kind) (name : Nat) (snapshot : GuardFile) : Option GuardMetadata :=
  snapshot.metadata.bind fun metadata => if matchesName kind name metadata then some metadata else none

def discardStaleCancellation (name : GuardName) (snapshot : GuardFile) : GuardClient Bool := do
  let now ← look caller GuardWorld.now
  if malformedStaleAfter < now - snapshot.modifiedAt then unlinkIfUnchanged caller name snapshot
  else .ret false

def discardCancellation (name : GuardName) (snapshot : GuardFile) (message : String) : GuardClient Bool := do
  let discarded ← discardStaleCancellation caller name snapshot
  .ensure discarded (.held message)
  .ret false

def removeCancelled (kind : Kind) (name : Nat) (entry cancellation : GuardFile) : GuardClient Bool := do
  let removed ← unlinkGuardSnapshotWithRetry caller (.entry kind name) entry guardAttempts
  if removed then do
    let _ ← unlinkGuardSnapshotWithRetry caller (.cancelled kind name) cancellation guardAttempts
    .ret true
  else .ret true

def malformedCancellation : String := "A mutation guard cancellation record is malformed"

def foreignCancellation : String := "A mutation guard cancellation record has mismatched ownership"

def guardEntryIsCancelled (kind : Kind) (name : Nat) (entry : GuardFile) (metadata : GuardMetadata) : GuardClient Bool := do
  let snapshot ← readGuardSnapshot caller (.cancelled kind name)
  match snapshot with
  | none => .ret false
  | some found =>
    match found.metadata with
    | none => discardCancellation caller (.cancelled kind name) found malformedCancellation
    | some owner =>
      if owner = metadata then removeCancelled caller kind name entry found
      else discardCancellation caller (.cancelled kind name) found foreignCancellation

/-- An entry that cannot be decoded: it is removed when it is old. -/
def readMalformed (kind : Kind) (name : Nat) (snapshot : GuardFile) : GuardClient (Option GuardMetadata) := do
  let now ← look caller GuardWorld.now
  if malformedStaleAfter < now - snapshot.modifiedAt then do
    let _ ← unlinkIfUnchanged caller (.entry kind name) snapshot
    .ret none
  else .raise (.held "A recent mutation guard entry is malformed")

def readOwned (kind : Kind) (name : Nat) (snapshot : GuardFile) (metadata : GuardMetadata) :
    GuardClient (Option GuardMetadata) :=
  if metadata.nonce ≠ nonce ∧ metadata.hostname = caller.hostname then do
    let running ← look caller fun world => world.alive ⟨caller.hostname, metadata.pid⟩
    if running then .ret (some metadata)
    else do
      let _ ← unlinkIfUnchanged caller (.entry kind name) snapshot
      .ret none
  else .ret (some metadata)

/-- One entry of `_read_guard_entries`. -/
def readGuardEntry (kind : Kind) (name : Nat) : GuardClient (Option GuardMetadata) := do
  let found ← readGuardSnapshot caller (.entry kind name)
  match found with
  | none => .ret none
  | some snapshot =>
    match decodeEntry kind name snapshot with
    | none => readMalformed caller kind name snapshot
    | some metadata => do
      let cancelled ← guardEntryIsCancelled caller kind name snapshot metadata
      if cancelled then .ret none else readOwned caller nonce kind name snapshot metadata

def readEach (kind : Kind) : List Nat → GuardClient (List GuardMetadata)
  | [] => .ret []
  | name :: rest => do
    let entry ← readGuardEntry caller nonce kind name
    let entries ← readEach kind rest
    .ret (entry.toList ++ entries)

def namesOf (kind : Kind) (files : Directory GuardName GuardFile) : List Nat :=
  files.filterMap fun file =>
    match file.1 with
    | .entry other nonce => if other = kind then some nonce else none
    | .cancelled _ _ => none

/-- The names of a listing, in order. A name that was there when the listing began and still is is
among them; one that was made since may be passed over. -/
def listEntries (kind : Kind) (began : GuardWorld → Stage) : GuardClient (List Nat) := do
  let first ← perform caller fun world => (namesOf kind world.files, world.mark nonce (began world))
  look caller fun world =>
    ((namesOf kind world.files).filter fun name => first.contains name || !world.unlisted (.entry kind name)).mergeSort (· ≤ ·)

def readGuardEntries (kind : Kind) (began : GuardWorld → Stage) : GuardClient (List GuardMetadata) := do
  let names ← listEntries caller nonce kind began
  readEach caller nonce kind names

/-! The guard. -/

def publishGuardCancellation (kind : Kind) (metadata : GuardMetadata) : GuardClient Unit := do
  let written ← writeExclusive caller nonce (.cancelled kind nonce) metadata id id
  match written with
  | some _ => .ret ()
  | none => do
    let snapshot ← readGuardSnapshot caller (.cancelled kind nonce)
    .ensure ((snapshot.bind GuardFile.metadata) == some metadata) (.lock "The mutation guard cancellation record is invalid")

/-- `_release_mutation_guard` behind its checks. -/
def unlinkGuard (kind : Kind) (metadata : GuardMetadata) : GuardClient Unit := do
  let unlinked ← unlinkWithRetry caller (.entry kind nonce) replaceAttempts
  match unlinked with
  | .refused => publishGuardCancellation caller nonce kind metadata
  | _ => .ret ()

def releaseMutationGuard (kind : Kind) (metadata : GuardMetadata) : GuardClient Unit := do
  let snapshot ← readGuardSnapshotWithRetry caller (.entry kind nonce) guardAttempts
  match snapshot with
  | none => publishGuardCancellation caller nonce kind metadata
  | some none => .raise (.lock "The context lock mutation guard disappeared")
  | some (some found) =>
    match found.metadata with
    | none => .raise (.lock "The context lock mutation guard is malformed")
    | some owner =>
      if owner.nonce = metadata.nonce then unlinkGuard caller nonce kind metadata
      else .raise (.lock "The context lock mutation guard is owned by another process")

def leave : GuardClient Unit := perform caller fun world => ((), world.mark nonce .left)

def releaseQuietly (kind : Kind) (metadata : GuardMetadata) : GuardClient Unit :=
  (releaseMutationGuard caller nonce kind metadata).handle fun error =>
    match error with
    | .held _ => .ret ()
    | .lock _ => .ret ()
    | other => .raise other

/-- The end of an acquisition that fails: its entries are released, and the error is raised again. -/
def abandon (entries : List (Kind × GuardMetadata)) (error : LockError) : GuardClient α := do
  leave caller nonce
  let rec releaseAll : List (Kind × GuardMetadata) → GuardClient Unit
    | [] => .ret ()
    | entry :: rest => do
      releaseQuietly caller nonce entry.1 entry.2
      releaseAll rest
  releaseAll entries
  .raise error

def publishedTickets (process : Nat → Process) (world : GuardWorld) (nonce : Nat) : Option Nat :=
  match world.stage nonce with
  | .published ticket => if world.alive (process nonce) then some ticket else none
  | .inside ticket => if world.alive (process nonce) then some ticket else none
  | _ => none

def smallest : List GuardMetadata → Option GuardMetadata
  | [] => none
  | entry :: rest =>
    match smallest rest with
    | none => some entry
    | some other =>
      if other.ticket < entry.ticket ∨ other.ticket = entry.ticket ∧ other.nonce < entry.nonce then some other else some entry

variable (process : Nat → Process)

def drawing (world : GuardWorld) : Stage := .numbering (publishedTickets process world)

def drawTicket (metadata : GuardMetadata) : GuardClient Nat := do
  let written ← writeExclusive caller nonce (.entry .choosing nonce) metadata (fun _ => .created) fun _ => .announced
  .ensure written.isSome .os
  let tickets ← readGuardEntries caller nonce .ticket (drawing process)
  .ret ((tickets.map GuardMetadata.ticket).foldl max 0 + 1)

/-- The attempts to enter: all the announcements are read, and behind them the tickets. -/
def awaitTurn : Nat → GuardClient Unit
  | 0 => .raise (.held "The context lock mutation guard is held by another process")
  | attempts + 1 => do
    let choosingEntries ← readGuardEntries caller nonce .choosing fun world => world.stage nonce
    let ticketEntries ← readGuardEntries caller nonce .ticket fun world => world.stage nonce
    .ensure (ticketEntries.any fun entry => entry.nonce == nonce) (.lock "The context lock mutation ticket disappeared")
    if choosingEntries.isEmpty ∧ (smallest ticketEntries).map GuardMetadata.nonce = some nonce then .ret ()
    else awaitTurn attempts

/-- The publication of the ticket, and the wait for the smaller ones. -/
def takeTurn (metadata : GuardMetadata) (ticket : Nat) : GuardClient Unit := do
  let written ← writeExclusive caller nonce (.entry .ticket nonce) { metadata with ticket := ticket }
    (fun _ => .ticketed ticket) fun _ => .published ticket
  .ensure written.isSome .os
  releaseMutationGuard caller nonce .choosing metadata
  awaitTurn caller nonce guardAttempts

/-- `_acquire_mutation_guard`: the metadata of the ticket. -/
def acquireMutationGuard : GuardClient GuardMetadata := do
  let acquiredAt ← look caller GuardWorld.now
  let metadata : GuardMetadata := ⟨caller.pid, caller.hostname, acquiredAt, nonce, 0⟩
  let ticket ← (drawTicket caller nonce process metadata).handle (abandon caller nonce [(.choosing, metadata)])
  let drawn := { metadata with ticket := ticket }
  (takeTurn caller nonce metadata ticket).handle (abandon caller nonce [(.choosing, metadata), (.ticket, drawn)])
  .ret drawn

def guarded : GuardClient Unit := do
  let metadata ← acquireMutationGuard caller nonce process
  perform caller fun world => ((), world.mark nonce (.inside metadata.ticket))
  leave caller nonce
  releaseMutationGuard caller nonce .ticket metadata

end

def contenders (process : Nat → Process) (world : GuardWorld) : Pool Nat GuardWorld Unit LockError Unit :=
  ⟨fun nonce => guarded (process nonce) nonce process, world⟩

end Workctx.Locking
