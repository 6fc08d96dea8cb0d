import Workctx.Durable.Overwrite
import Workctx.Engine.Atomicity

/-! Histories of transactions. Whatever stops the calls of a history, the store and the ledger behind it are
those of whole transactions, one after the other. -/

namespace Workctx.Engine
open Workctx.Durable Workctx.Text Workctx.Domain Workctx.Staging List

/-- What an operation writes on the canonical files. -/
def writesOf (files : String → Option Bytes) : ResolvedOperation → List (String × Option Bytes)
  | .replace target content => [(target, some content)]
  | .move source destination => [(source, none), (destination, files source)]
  | .delete target => [(target, none)]

section
variable {engine : TransactionEngine} {start disk : Disk} {call : ApplyCall engine}

/-! One transaction. -/

/-- A whole transaction: it leaves everything as it was, or an event of its own behind the ledger. With a committed
event the operations that its proposal compiles to are written, all of them. -/
inductive Serves (call : ApplyCall engine) (before after : Disk) : Prop
  | idle (files : after.canonical = before.canonical) (ledger : after.ledger = before.ledger)
  | undone (event : AuditEvent) (own : event.proposalId = call.proposal.id) (result : event.result = .rolledBack)
      (files : after.canonical = before.canonical) (ledger : after.ledger = before.ledger ++ [event])
  | done (event : AuditEvent) (resolved : List ResolvedOperation) (own : event.proposalId = call.proposal.id)
      (result : event.result = .committed) (resolves : call.Resolves before resolved)
      (files : after.canonical = overwrite before.canonical (resolved.flatMap (writesOf before.canonical)))
      (ledger : after.ledger = before.ledger ++ [event])

theorem writesOf_paths (files : String → Option Bytes) (resolved : List ResolvedOperation) :
    (resolved.flatMap (writesOf files)).map Prod.fst = resolved.flatMap ResolvedOperation.paths := by
  rw [map_flatMap]
  refine congrArg (List.flatMap · resolved) (funext fun operation => ?_)
  cases operation <;> rfl

theorem written_of_done {operation : ResolvedOperation} (present : operation.Present start)
    (done : (operation.planned start).Done disk) :
    ∀ write ∈ writesOf start.canonical operation, disk.canonical write.1 = write.2 := by
  intro write member
  cases operation with
  | replace target content =>
    rw [mem_singleton.mp member]
    exact done
  | move source destination =>
    rcases mem_pair.mp member with rfl | rfl
    · exact done.1
    · obtain ⟨content, found⟩ := Option.isSome_iff_exists.mp present.1
      refine done.2.trans ?_
      rw [found]
      rfl
  | delete target =>
    rw [mem_singleton.mp member]
    exact done

theorem ApplyCall.Reached.chained (reached : call.Reached start disk) (verified : Chained engine start.ledger) :
    Chained engine disk.ledger := by
  rcases reached with unpublished | ⟨resolved, plan, plans, underway | finished⟩
  · exact unpublished.ledger ▸ verified
  · exact underway.chained
  · exact finished.chained

theorem ApplyCall.Reached.serves (reached : call.Reached start disk)
    (fresh : ∀ event ∈ start.ledger, event.proposalId ≠ call.proposal.id) (absent : disk.files .intent = none) :
    Serves call start disk := by
  obtain ⟨_, kept⟩ := reached.settled fresh absent
  rcases reached with unpublished | ⟨resolved, plan, plans, underway | finished⟩
  · exact .idle (funext unpublished.kept) unpublished.ledger
  · exact absurd (absent.symm.trans underway.published.intent) (by simp)
  obtain ⟨result, ⟨event, own, outcome, ledger⟩, images⟩ := finished.concluded
  rw [plans.identified] at own
  cases result with
  | committed =>
    have paths : (resolved.flatMap (writesOf start.canonical)).map Prod.fst = plan.paths := by
      rw [writesOf_paths, Plan.paths, plans.operations, flatMap_map]
      exact congrArg (List.flatMap · resolved) (funext fun operation => operation.planned_paths.symm)
    refine .done event resolved own outcome plans.resolves (eq_overwrite ?_ ?_ ?_) ledger
    · rw [paths]
      exact plan.paths_nodup
    · intro write member
      obtain ⟨operation, inside, written⟩ := mem_flatMap.mp member
      have planned : operation.planned start ∈ plan.operations := plans.operations ▸ mem_map_of_mem inside
      exact written_of_done (plans.present operation inside) (images _ planned) write written
    · rw [paths]
      exact finished.elsewhere
  | rolledBack =>
    refine .undone event own outcome (funext (kept ?_)) ledger
    rintro ⟨other, member, same, kind⟩
    rw [ledger] at member
    rcases mem_append.mp member with earlier | last
    · exact fresh other earlier same
    · rw [mem_singleton.mp last, outcome] at kind
      cases kind

/-! Histories. -/

/-- A call of `apply`, what interrupts it, and the recoveries behind it. -/
structure Session (engine : TransactionEngine) where
  call : ApplyCall engine
  faults : List (Fault Torn Failure)
  recovers : List (RecoverCall engine)

def Session.run (session : Session engine) (disk : Disk) : Disk :=
  recoveries session.recovers (session.call.program.run disk session.faults).store

def history (sessions : List (Session engine)) (disk : Disk) : Disk := sessions.foldl (fun disk session => session.run disk) disk

/-- No intent is pending, the names that the lease draws are free, the ledger has not seen the proposal, and no
content that it replaces has the hash of the new one. -/
structure Session.Begins (session : Session engine) (disk : Disk) : Prop where
  clean : (inspectRecovery engine.workspace disk).state = .clean
  unused : ∀ name, disk.files (.asset session.call.lease.directory name) = none
  fresh : ∀ event ∈ disk.ledger, event.proposalId ≠ session.call.proposal.id
  apart : ∀ resolved, session.call.Resolves disk resolved →
    ∀ operation ∈ resolved, (operation.planned disk).HashesApart engine.workspace.platform

/-- Each session begins on what the ones in front of it leave; behind the last one no intent is pending. -/
def Orderly : List (Session engine) → Disk → Prop
  | [], disk => (inspectRecovery engine.workspace disk).state = .clean
  | session :: rest, disk => session.Begins disk ∧ Orderly rest (session.run disk)

/-- Whole transactions, one after the other. -/
inductive Serial : List (Session engine) → Disk → Disk → Prop
  | none {disk : Disk} : Serial [] disk disk
  | next {session : Session engine} {rest : List (Session engine)} {before middle after : Disk}
      (serves : Serves session.call before middle) (later : Serial rest middle after) : Serial (session :: rest) before after

theorem Orderly.clean {sessions : List (Session engine)} (orderly : Orderly sessions disk) :
    (inspectRecovery engine.workspace disk).state = .clean := by
  cases sessions with
  | nil => exact orderly
  | cons session rest => exact orderly.1.clean

theorem Session.Begins.reached {session : Session engine} (begins : session.Begins disk) (verified : Chained engine disk.ledger) :
    session.call.Reached disk (session.run disk) := by
  have applied : session.call.Reached disk (session.call.program.run disk session.faults).store :=
    (apply_leads (absent_of_clean begins.clean) verified begins.unused begins.fresh begins.apart).run_leaves (fun _ _ => id) rfl
      session.faults
  exact recoveries_reach begins.fresh session.recovers applied

/-- A history of transactions, each of them stopped or failed at any of its steps and recovered until no intent is
pending, is serial, and its ledger verifies. -/
theorem history_serial (sessions : List (Session engine)) (verified : Chained engine start.ledger)
    (orderly : Orderly sessions start) :
    Serial sessions start (history sessions start) ∧ Chained engine (history sessions start).ledger := by
  induction sessions generalizing start with
  | nil => exact ⟨.none, verified⟩
  | cons session rest ih =>
    obtain ⟨begins, later⟩ := orderly
    have reached := begins.reached verified
    obtain ⟨serial, chained⟩ := ih (reached.chained verified) later
    exact ⟨.next (reached.serves begins.fresh (absent_of_clean later.clean)) serial, chained⟩

end

def noteSession : Session noteEngine := ⟨noteCall, stops, [noteRecovery]⟩

theorem history_serial_note : Serial [noteSession] emptyDisk (history [noteSession] emptyDisk) := by
  have chained : Chained noteEngine emptyDisk.ledger :=
    ⟨fun _ member => absurd member not_mem_nil, fun _ member => absurd member not_mem_nil, nodup_nil, nodup_nil, trivial⟩
  refine (history_serial [noteSession] chained ⟨⟨rfl, fun _ => rfl, fun _ member => absurd member not_mem_nil, ?_⟩, rfl⟩).1
  intro resolved _ operation _
  cases operation with
  | replace target content => exact fun old present => nomatch present
  | move source destination => exact trivial
  | delete target => exact trivial

end Workctx.Engine
