import Workctx.Installs.Applying
import Workctx.Installs.Recovering

/-! An adapter transaction is all or nothing, wherever it and its recoveries are stopped. -/

namespace Workctx.Installs
open Workctx.Durable

/-- The expected bytes of the operation are on disk: in the target or in its evidence. -/
def Operation.Kept (operation : Operation) (state : ProjectState) : Prop :=
  ∀ hash, operation.expected = some hash → state.hashAt operation.target = some hash ∨
    state.evidenceHash .verified operation.index = some hash ∨ state.evidenceHash .removed operation.index = some hash

/-- What every stop leaves: without an intent the targets are all on one side, and an intent stays
while bytes are still needed. -/
structure AllOrNothing (client : AgentClient) (operations : List Operation) (state : ProjectState) : Prop where
  resolved : state.intent = .absent → allMatch operations .expected state = true ∨ allMatch operations .postimage state = true
  torn : state.intent = .torn → allMatch operations .expected state = true
  kept : ∀ owner recorded, state.intent = .written owner recorded →
    owner = client ∧ recorded = operations ∧ ∀ operation ∈ operations, operation.Kept state

section
variable {site : Site} {client : AgentClient} {operations : List Operation} {operation : Operation} {start state : ProjectState}

theorem Operation.Steady.kept (steady : operation.Steady state) : operation.Kept state := by
  intro hash expected
  rcases steady.recorded with target | _
  · exact .inl (target.trans expected)
  · have copy : (EvidenceKind.verified, operation.expected) ∈ operation.artifacts :=
      Operation.mem_artifacts.mpr (.inr (.inl ⟨rfl, by rw [expected]; rfl⟩))
    rcases steady.evidence _ copy with ⟨_, verified⟩ | ⟨_, target | ⟨staged, _⟩⟩
    · exact .inr (.inl (verified.trans expected))
    · exact .inl (target.trans expected)
    · cases staged

theorem Operation.Reserving.kept (reserving : operation.Reserving site state) (shaped : operation.Shaped) :
    operation.Kept state := by
  intro hash expected
  obtain ⟨creation, _⟩ | ⟨_, target, _⟩ := reserving
  · have absent := (shaped.create creation).1
    rw [expected] at absent
    cases absent
  · exact .inl (target.trans expected)

theorem Stopped.allOrNothing (stopped : Stopped site client operations start state) : AllOrNothing client operations state := by
  rcases stopped.left with ⟨settled, _⟩ | ⟨torn, reached, _⟩ | ⟨resting, _⟩ | ⟨resolved, settled, _⟩
  · refine ⟨fun _ => .inl settled.reached, fun torn => ?_, fun _ _ written => ?_⟩
    · rw [settled.intent] at torn
      cases torn
    · rw [settled.intent] at written
      cases written
  · refine ⟨fun absent => ?_, fun _ => reached, fun _ _ written => ?_⟩
    · rw [torn] at absent
      cases absent
    · rw [torn] at written
      cases written
  · refine ⟨fun absent => ?_, fun torn => ?_, fun owner recorded written => ?_⟩
    · rw [resting.intent] at absent
      cases absent
    · rw [resting.intent] at torn
      cases torn
    · rw [resting.intent] at written
      cases written
      refine ⟨rfl, rfl, fun operation member => ?_⟩
      rcases resting.each operation member with steady | reserving
      · exact steady.kept
      · exact reserving.kept (resting.shaped operation member)
  · refine ⟨fun _ => ?_, fun torn => ?_, fun _ _ written => ?_⟩
    · cases resolved with
      | expected => exact .inl settled.reached
      | postimage => exact .inr settled.reached
    · rw [settled.intent] at torn
      cases torn
    · rw [settled.intent] at written
      cases written

theorem Stopped.recover (stopped : Stopped site client operations start state) (expected : Option RecoveryTransition)
    (authority : ProjectState → Except InstallError Unit) (faults : List (Fault AdapterFile InstallError)) :
    ∃ begun, Stopped site client operations begun
      ((recoverTransaction site client expected (.check authority)).run state faults).store := by
  have first : (recoverTransaction site client expected (.check authority)).run state faults =
      (Program.bind (.check (inspectTransactions site client)) _).run state faults := rfl
  have refused {error : InstallError} (failed : inspectTransactions site client state = .error error) :
      ((recoverTransaction site client expected (.check authority)).run state faults).store = state := by
    rw [first, Program.run_bind]
    simp [Program.check, failed, Outcome.store]
  have idle (absent : inspectTransactions site client state = .ok none) :
      ((recoverTransaction site client expected (.check authority)).run state faults).store = state := by
    rw [first, Program.run_bind]
    simp [Program.check, absent, Outcome.store]
  rcases stopped.left with ⟨settled, _⟩ | ⟨torn, _, _⟩ | ⟨resting, _⟩ | ⟨_, settled, _⟩
  · exact ⟨start, by rwa [idle (by rw [inspectTransactions, settled.intent])]⟩
  · exact ⟨start, by rwa [refused (by rw [inspectTransactions, torn])]⟩
  · have triple := @recoverTransaction_triple False _ _ _ _ authority resting expected (fun must => must.elim)
      fun must => must.elim
    exact ⟨state, triple.run_leaves (fun _ _ both => both.1.choose_spec.stopped) rfl faults⟩
  · exact ⟨start, by rwa [idle (by rw [inspectTransactions, settled.intent])]⟩

end

/-! Whole runs. -/

/-- One call of `recover_transaction`, its authority check, and where it is stopped. -/
structure Recovery where
  expected : Option RecoveryTransition
  authority : ProjectState → Except InstallError Unit
  faults : List (Fault AdapterFile InstallError)

/-- One recovery after the other, each of them stopped anywhere. -/
def recoverRepeatedly (site : Site) (client : AgentClient) : List Recovery → ProjectState → ProjectState
  | [], state => state
  | recovery :: rest, state => recoverRepeatedly site client rest
      ((recoverTransaction site client recovery.expected (.check recovery.authority)).run state recovery.faults).store

theorem recoverRepeatedly_stopped {site : Site} {client : AgentClient} {operations : List Operation}
    (recoveries : List Recovery) {start state : ProjectState} (stopped : Stopped site client operations start state) :
    ∃ begun, Stopped site client operations begun (recoverRepeatedly site client recoveries state) := by
  induction recoveries generalizing start state with
  | nil => exact ⟨start, stopped⟩
  | cons recovery rest ih =>
    obtain ⟨begun, later⟩ := stopped.recover recovery.expected recovery.authority recovery.faults
    exact ih later

/-- A transaction that starts without an intent from its expected states is all or nothing behind every
stop of its own and of every recovery; it returns only when all targets have reached their postimages. -/
theorem transaction_all_or_nothing (site : Site) (client : AgentClient) (mutations : List FileMutation)
    (targetSnapshots : List (String × Option AdapterFile)) (authority : ProjectState → Except InstallError Unit)
    (faults : List (Fault AdapterFile InstallError)) (recoveries : List Recovery) (state : ProjectState)
    (clear : state.intent = .absent) (starts : allMatch (operationsOf mutations) .expected state = true) :
    AllOrNothing client (operationsOf mutations) (recoverRepeatedly site client recoveries
      ((apply site client mutations targetSnapshots (.check authority)).run state faults).store) ∧
    ∀ paths after rest, (apply site client mutations targetSnapshots (.check authority)).run state faults = .ok paths after rest →
      after.intent = .absent ∧ allMatch (operationsOf mutations) .postimage after = true := by
  have begun : Under client (operationsOf mutations) state (Settled (operationsOf mutations) .expected) state :=
    ⟨⟨clear, starts⟩, Within.refl state, rfl⟩
  by_cases nonempty : mutations = []
  · subst nonempty
    refine ⟨?_, fun paths after rest returned => ?_⟩
    · have stopped : Stopped site client (operationsOf []) state state := begun.settled
      obtain ⟨_, later⟩ := recoverRepeatedly_stopped recoveries stopped
      exact later.allOrNothing
    · cases returned
      exact ⟨clear, rfl⟩
  · have triple := @apply_triple site client _ state targetSnapshots authority nonempty
    constructor
    · obtain ⟨_, later⟩ := recoverRepeatedly_stopped recoveries (triple.run_leaves (fun _ _ => Retired.stopped) begun faults)
      exact later.allOrNothing
    · intro paths after rest returned
      have accepted := triple state faults begun
      rw [returned] at accepted
      exact ⟨accepted.settled.intent, accepted.settled.reached⟩

namespace Sample

def site : Site where
  isContext := true
  emptyHash := "empty"
  operationsDigest _ operations := toString operations.length
  collisionKey := String.toLower
  relativePath _ := true
  credentialCapable _ := false

def manifest : String := manifestPath site .codex

def project : ProjectState where
  targets path := if path = "AGENTS.md" then some ⟨0, "old"⟩ else if path = manifest then some ⟨1, "manifest-1"⟩ else none
  evidence _ _ := none
  intent := .absent
  fresh := 2
  records _ := none
  retired _ := none
  targetChanges := []
  recordChanges := []

/-- One file is replaced, one is made, and the manifest follows. -/
def mutations : List FileMutation :=
  [⟨"AGENTS.md", some ⟨0, "old"⟩, some "new"⟩, ⟨".codex/config.toml", none, some "bridge"⟩,
    ⟨manifest, some ⟨1, "manifest-1"⟩, some "manifest-2"⟩]

end Sample

theorem transaction_all_or_nothing_sample :
    AllOrNothing .codex (operationsOf Sample.mutations) (recoverRepeatedly Sample.site .codex [⟨none, fun _ => .ok (), []⟩]
      ((apply Sample.site .codex Sample.mutations [] (.check fun _ => .ok ())).run Sample.project
        (List.replicate 12 .run ++ [.crash .landed])).store) ∧
    ∀ paths after rest, (apply Sample.site .codex Sample.mutations [] (.check fun _ => .ok ())).run Sample.project
      (List.replicate 12 .run ++ [.crash .landed]) = .ok paths after rest →
      after.intent = .absent ∧ allMatch (operationsOf Sample.mutations) .postimage after = true :=
  transaction_all_or_nothing Sample.site .codex Sample.mutations [] (fun _ => .ok ()) _ _ Sample.project rfl (by decide +kernel)
end Workctx.Installs
