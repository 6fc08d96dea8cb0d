import Workctx.Installs.Phases

/-! The forward run of a transaction and its rollback: what each step makes of the operation at work. -/

namespace Workctx.Installs
open Workctx.Durable List

/-! Small programs. -/

section
variable {site : Site} {client : AgentClient} {operations : List Operation} {pre cut : ProjectState → Prop}

theorem atomic_keep {total : Prop} {effect : ProjectState → ProjectState} (keeps : ∀ state, pre state → pre (effect state))
    (stops : ∀ state, pre state → cut state) :
    Triple total pre (.perform (.atomic effect) : Action Unit) (fun _ => pre) cut := by
  apply Triple.perform
  intro state holds
  exact ⟨keeps state holds, stops state holds, stops _ (keeps state holds), fun _ => stops state holds⟩

section
variable (stops : ∀ state, pre state → cut state)
include stops

theorem heartbeat_keep {total : Prop} :
    Triple total pre heartbeat (fun _ => pre) cut := atomic_keep (fun _ => id) stops

theorem check_known {α : Type} {view : ProjectState → Except InstallError α} :
    Triple False pre (.check view : Action α) (fun value state => pre state ∧ view state = .ok value) cut :=
  Triple.check_keep stops fun must => must.elim

theorem check_pass {α : Type} {view : ProjectState → Except InstallError α} :
    Triple False pre (.check view : Action α) (fun _ => pre) cut :=
  (check_known stops).forget

theorem ensure_pass {test : Bool} {error : InstallError} :
    Triple False pre (.ensure test error : Action Unit) (fun _ => pre) cut :=
  Triple.ensure (fun _ holds _ => holds) fun state holds _ => ⟨stops state holds, id⟩

end

theorem observe_keep {total : Prop} {α : Type} {view : ProjectState → α} :
    Triple total pre (.observe view : Action α) (fun value state => pre state ∧ view state = value) cut :=
  Triple.observe fun _ holds => ⟨holds, rfl⟩

theorem demand_ok {test : Bool} {error : InstallError} (passed : demand test error = .ok ()) : test = true := by
  unfold demand at passed
  split at passed
  · assumption
  · cases passed

theorem demand_known {test : ProjectState → Bool} {error : InstallError} (stops : ∀ state, pre state → cut state) :
    Triple False pre (.check fun state => demand (test state) error : Action Unit)
      (fun _ state => pre state ∧ test state = true) cut :=
  (check_known stops).ensuring (fun _ _ passed => ⟨passed.1, demand_ok passed.2⟩)

theorem removeDirectories_keep {total : Prop} (stops : ∀ state, pre state → cut state) :
    Triple total pre removeDirectories (fun _ => pre) cut :=
  Triple.bind (heartbeat_keep stops) fun _ => Triple.bind (heartbeat_keep stops) fun _ =>
    Triple.bind (heartbeat_keep stops) fun _ => heartbeat_keep stops

end

/-! Footprints. -/

structure Footprint (client : AgentClient) (operation : Operation) (before after : ProjectState) : Prop
    extends Elsewhere operation before after where
  records : after.records = before.records
  recordChanges : after.recordChanges = before.recordChanges
  retired : after.retired = before.retired
  targetChanges : after.targetChanges = before.targetChanges ∧ after.targets = before.targets ∨
    after.targetChanges = ⟨client, before.pending client, before.intent⟩ :: before.targetChanges

section
variable {site : Site} {client : AgentClient} {operation : Operation} (state : ProjectState)

theorem evidence_footprint (kind : EvidenceKind) (file : Option AdapterFile) (fresh : Nat) :
    Footprint client operation state { state.setEvidence kind operation.index file with fresh := fresh } :=
  ⟨⟨rfl, fun _ _ => rfl, fun _ _ differs => state.setEvidence_other (.inr differs) file⟩, rfl, rfl, rfl, .inl ⟨rfl, rfl⟩⟩

theorem target_footprint {changed : ProjectState} (elsewhere : Elsewhere operation state changed)
    (records : changed.records = state.records) (recordChanges : changed.recordChanges = state.recordChanges)
    (retired : changed.retired = state.retired) :
    Footprint client operation state
      { changed with targetChanges := ⟨client, state.pending client, state.intent⟩ :: state.targetChanges } :=
  ⟨⟨elsewhere.intent, elsewhere.targets, elsewhere.evidence⟩, records, recordChanges, retired, .inr rfl⟩

end

/-- An assertion of a call that has not retired its intent. -/
structure Under (client : AgentClient) (operations : List Operation) (start : ProjectState) (phase : ProjectState → Prop)
    (state : ProjectState) : Prop where
  phase : phase state
  within : Within client operations start state
  retired : state.retired = start.retired

structure Stopped (site : Site) (client : AgentClient) (operations : List Operation) (start state : ProjectState) : Prop where
  left : Left site client operations start state
  within : Within client operations start state

section
variable {site : Site} {client : AgentClient} {operations done todo : List Operation} {operation : Operation}
  {start state after : ProjectState} {phase next : ProjectState → Prop}

theorem Within.step (within : Within client operations start state) (member : operation ∈ operations)
    (intent : state.intent = .written client operations) (footprint : Footprint client operation state after) :
    Within client operations start after := by
  rcases footprint.targetChanges with ⟨logged, targets⟩ | logged
  · exact within.evidence footprint.records footprint.recordChanges logged targets
  · exact within.target member intent footprint.records footprint.recordChanges logged footprint.targets

theorem Under.weaken (under : Under client operations start phase state) (weaker : ∀ state, phase state → next state) :
    Under client operations start next state := ⟨weaker state under.phase, under.within, under.retired⟩

theorem Under.stopped (under : Under client operations start (Resting site client operations) state) :
    Stopped site client operations start state := ⟨.resting under.phase under.retired, under.within⟩

theorem Under.step (split : operations = done ++ operation :: todo)
    (holds : Under client operations start (Working site client done operation todo) state)
    (footprint : Footprint client operation state after)
    (current : operation.Fresh after ∨ operation.Reserving site after ∨ operation.Done after) :
    Under client operations start (Working site client done operation todo) after :=
  ⟨holds.phase.step footprint.toElsewhere current,
    holds.within.step (by rw [split]; simp) (split ▸ holds.phase.intent) footprint, footprint.retired.trans holds.retired⟩

/-- The program takes the operation at work from one assertion to another. -/
def Works (site : Site) (client : AgentClient) (operations : List Operation) (start : ProjectState) (done : List Operation)
    (operation : Operation) (todo : List Operation) (current reached : ProjectState → Prop) (program : Action Unit) : Prop :=
  Triple False (Under client operations start fun state => Working site client done operation todo state ∧ current state) program
    (fun _ => Under client operations start fun state => Working site client done operation todo state ∧ reached state)
    (Under client operations start (Working site client done operation todo))

theorem working_step {current : ProjectState → Prop} {reached : ProjectState → Prop} {effect : ProjectState → ProjectState}
    (split : operations = done ++ operation :: todo)
    (footprint : ∀ state, Footprint client operation state (effect state))
    (goes : ∀ state, Working site client done operation todo state → current state → reached (effect state))
    (known : ∀ state, reached state → operation.Fresh state ∨ operation.Reserving site state ∨ operation.Done state) :
    Works site client operations start done operation todo current reached (.perform (.atomic effect)) := by
  apply Triple.perform
  intro state holds
  have held := holds.weaken fun _ => And.left
  have there := goes state holds.phase.1 holds.phase.2
  have stepped := held.step split (footprint state) (known _ there)
  exact ⟨⟨⟨stepped.phase, there⟩, stepped.within, stepped.retired⟩, held, stepped, fun _ => held⟩

end

/-! One mutation. -/

section
variable {site : Site} {client : AgentClient} {operations done todo : List Operation} {operation : Operation}
  {start : ProjectState}

theorem installStaged_triple (split : operations = done ++ operation :: todo) (kept : operation.operation ≠ .delete) :
    Works site client operations start done operation todo (fun state => operation.Fresh state ∨ operation.Reserving site state)
      operation.Done (installStaged client operation) := by
  have stops : ∀ state, Under client operations start (fun state => Working site client done operation todo state ∧
      (operation.Fresh state ∨ operation.Reserving site state)) state →
        Under client operations start (Working site client done operation todo) state :=
    fun _ holds => holds.weaken fun _ => And.left
  unfold installStaged
  apply Triple.bind (demand_known stops)
  intro _
  have replaced : Works site client operations start done operation todo (fun state =>
        (operation.Fresh state ∨ operation.Reserving site state) ∧ state.evidenceHash .staged operation.index = operation.postimage)
      operation.Done (replaceTarget client .staged operation.index operation.target) := by
    apply working_step split
    · intro state
      exact target_footprint state ((setTarget_elsewhere _).trans (setEvidence_elsewhere .staged none)) rfl rfl rfl
    · intro state working now
      have copied : operation.expected.isSome = true → state.evidenceHash .verified operation.index = operation.expected := by
        rcases now.1 with fresh | ⟨creation, _⟩ | ⟨removal, _⟩
        · exact fresh.verified
        · intro present
          have shaped := working.shaped operation (by simp)
          rw [(shaped.create creation).1] at present
          cases present
        · exact absurd removal kept
      refine ⟨?_, fun _ => state.setEvidence_self .staged operation.index none, fun present => ?_, fun removal => absurd removal kept⟩
      · have target := state.setTarget_self operation.target (state.evidence .staged operation.index)
        rw [← now.2, ProjectState.hashAt, ProjectState.evidenceHash]
        exact congrArg _ target
      · have other := state.setEvidence_kind (by decide : EvidenceKind.verified ≠ .staged) operation.index operation.index none
        rw [← copied present, ProjectState.evidenceHash, ProjectState.evidenceHash]
        exact congrArg _ other
    · exact fun _ done => .inr (.inr done)
  exact replaced.strengthen (fun _ holds => ⟨⟨holds.1.phase.1, holds.1.phase.2, beq_iff_eq.mp holds.2⟩, holds.1.within, holds.1.retired⟩)

theorem reserveTarget_triple (split : operations = done ++ operation :: todo) (creation : operation.operation = .create) :
    Works site client operations start done operation todo operation.Fresh (operation.Reserving site)
      (reserveTarget site client operation.target) := by
  apply working_step split
  · intro state
    exact target_footprint state ⟨rfl, fun _ differs => state.setTarget_other differs _, fun _ _ _ => rfl⟩ rfl rfl rfl
  · intro state working fresh
    have shaped := working.shaped operation (by simp)
    have target := state.setTarget_self operation.target (some ⟨state.fresh, site.emptyHash⟩)
    refine .inl ⟨creation, ?_, fresh.staged (shaped.create creation).2⟩
    rw [ProjectState.hashAt]
    exact congrArg _ target
  · exact fun _ reserving => .inr (.inl reserving)

/-- The reservation is another file than the one to be moved. -/
def Reserved (site : Site) (operation : Operation) (state : ProjectState) : Prop :=
  operation.Reserving site state ∧ ∀ file, state.targets operation.target = some file →
    state.evidence .removed operation.index ≠ some file

section
variable (split : operations = done ++ operation :: todo)
include split

theorem reserveRemoved_triple (removal : operation.operation = .delete) :
    Works site client operations start done operation todo operation.Fresh (Reserved site operation)
      (reserveRemoved site operation.index operation.target) := by
  apply working_step split
  · exact fun state => evidence_footprint state .removed _ _
  · intro state working fresh
    have shaped := working.shaped operation (by simp)
    have own := state.setEvidence_self .removed operation.index (some ⟨state.newIdentity operation.target, site.emptyHash⟩)
    have verified := fresh.verified (shaped.delete removal).1
    constructor
    · refine .inr ⟨removal, fresh.target, ?_, ?_⟩
      · have other := state.setEvidence_kind (by decide : EvidenceKind.verified ≠ .removed) operation.index operation.index
          (some ⟨state.newIdentity operation.target, site.emptyHash⟩)
        rw [← verified, ProjectState.evidenceHash, ProjectState.evidenceHash]
        exact congrArg _ other
      · rw [ProjectState.evidenceHash]
        exact congrArg _ own
    · intro file present same
      have there : state.targets operation.target = some file := present
      have both : some (⟨state.newIdentity operation.target, site.emptyHash⟩ : AdapterFile) = some file := own.symm.trans same
      have identity : state.newIdentity operation.target = file.identity := congrArg AdapterFile.identity (Option.some_inj.mp both)
      rw [ProjectState.newIdentity, there] at identity
      dsimp only at identity
      omega
  · exact fun _ reserved => .inr (.inl reserved.1)

/-- The move of a deleted target; a reservation that was not replaced is taken back. -/
theorem moveTarget_triple (removal : operation.operation = .delete) :
    Works site client operations start done operation todo operation.Fresh operation.Done (moveTarget site client operation) := by
  have stops : ∀ state, Under client operations start (fun state => Working site client done operation todo state ∧
      operation.Fresh state) state → Under client operations start (Working site client done operation todo) state :=
    fun _ holds => holds.weaken fun _ => And.left
  unfold moveTarget
  apply Triple.bind (check_pass stops)
  intro _
  apply Triple.bind (reserveRemoved_triple split removal)
  intro _
  apply Triple.bind observe_keep
  intro reservation
  -- While the reservation is in place, nothing has been moved.
  let unmoved (state : ProjectState) : Prop := Working site client done operation todo state ∧
    (state.evidence .removed operation.index = reservation → operation.Reserving site state)
  have moved : Triple False (fun state => Under client operations start (fun state =>
        Working site client done operation todo state ∧ Reserved site operation state) state ∧
          state.evidence .removed operation.index = reservation)
      (moveToRemoved client operation.index operation.target)
      (fun _ => Under client operations start fun state => Working site client done operation todo state ∧ operation.Done state)
      (Under client operations start unmoved) := by
    apply Triple.perform
    intro state holds
    obtain ⟨under, seen⟩ := holds
    obtain ⟨working, reserving, distinct⟩ := under.phase
    have shaped := working.shaped operation (by simp)
    obtain ⟨present, absent⟩ := shaped.delete removal
    obtain ⟨creation, _⟩ | ⟨_, target, verified, _⟩ := reserving
    · rw [removal] at creation
      cases creation
    obtain ⟨file, there⟩ : ∃ file, state.targets operation.target = some file := by
      rw [← target, ProjectState.hashAt, Option.isSome_map] at present
      exact Option.isSome_iff_exists.mp present
    let changed := (state.setEvidence .removed operation.index (state.targets operation.target)).setTarget operation.target none
    have own : changed.evidence .removed operation.index = state.targets operation.target :=
      state.setEvidence_self .removed operation.index (state.targets operation.target)
    have other : changed.evidence .verified operation.index = state.evidence .verified operation.index :=
      state.setEvidence_kind (by decide : EvidenceKind.verified ≠ .removed) operation.index operation.index
        (state.targets operation.target)
    have gone : changed.targets operation.target = none := ProjectState.setTarget_self ..
    have footprint := @target_footprint client operation state changed
      ((setEvidence_elsewhere .removed (state.targets operation.target)).trans (setTarget_elsewhere none)) rfl rfl rfl
    have finished : operation.Done changed := by
      refine ⟨?_, fun some_post => ?_, fun _ => ?_, fun _ => ?_⟩
      · rw [ProjectState.hashAt, gone, absent]
        rfl
      · rw [absent] at some_post
        cases some_post
      · rw [ProjectState.evidenceHash, other]
        exact verified
      · rw [ProjectState.evidenceHash, own]
        exact target
    have held := under.weaken fun _ => And.left
    have logged : operation.Done { changed with
        targetChanges := ⟨client, state.pending client, state.intent⟩ :: state.targetChanges } :=
      finished.same ⟨rfl, fun _ => rfl⟩
    have stepped := held.step split footprint (.inr (.inr logged))
    have before : Under client operations start unmoved state :=
      ⟨⟨working, fun _ => .inr ⟨removal, target, verified, by assumption⟩⟩, under.within, under.retired⟩
    refine ⟨⟨⟨stepped.phase, logged⟩, stepped.within, stepped.retired⟩, before, ⟨⟨stepped.phase, fun same => ?_⟩,
      stepped.within, stepped.retired⟩, fun _ => before⟩
    have replaced : state.targets operation.target = state.evidence .removed operation.index :=
      own.symm.trans (same.trans seen.symm)
    exact absurd (replaced.symm.trans there) (distinct file there)
  refine Triple.handle moved (fun _ holds => holds.weaken fun _ => And.left) fun error => ?_
  apply Triple.bind observe_keep
  intro current
  have raised : Triple False (Under client operations start (Working site client done operation todo)) (.raise error : Action Unit)
      (fun _ => Under client operations start fun state => Working site client done operation todo state ∧ operation.Done state)
      (Under client operations start (Working site client done operation todo)) :=
    Triple.raise fun _ holds => ⟨holds, id⟩
  dsimp only
  split
  · next same =>
    have taken : Works site client operations start done operation todo (operation.Reserving site) operation.Fresh
        (unlinkEvidence .removed operation.index) := by
      apply working_step split
      · exact fun state => evidence_footprint state .removed none state.fresh
      · intro state working reserving
        obtain ⟨present, absent⟩ := (working.shaped operation (by simp)).delete removal
        obtain ⟨creation, _⟩ | ⟨_, target, verified, _⟩ := reserving
        · rw [removal] at creation
          cases creation
        have other := state.setEvidence_kind (by decide : EvidenceKind.verified ≠ .removed) operation.index operation.index none
        refine ⟨target, fun some_post => ?_, fun _ => ?_, state.setEvidence_self .removed operation.index none⟩
        · rw [absent] at some_post
          cases some_post
        · rw [ProjectState.evidenceHash, other]
          exact verified
      · exact fun _ => .inl
    refine Triple.bind (taken.strengthen (fun state holds => ?_)) fun _ =>
      raised.strengthen (fun _ holds => holds.weaken fun _ => And.left)
    exact ⟨⟨holds.1.phase.1, holds.1.phase.2 (holds.2.trans same)⟩, holds.1.within, holds.1.retired⟩
  · exact raised.strengthen (fun _ holds => holds.1.weaken fun _ => And.left)

theorem mutateTarget_triple {post : Unit → ProjectState → Prop} {cut : ProjectState → Prop}
    (stops : ∀ state, Under client operations start (Working site client done operation todo) state → cut state)
    (reservations : List (Nat × AdapterFile)) {next : List (Nat × AdapterFile) → Action Unit}
    {failed : List (Nat × AdapterFile) → InstallError → Action Unit}
    (continues : ∀ known, Triple False (Under client operations start (Advancing site client (done ++ [operation]) todo))
      (next known) post cut)
    (abandons : ∀ known error, Triple False (Under client operations start (Working site client done operation todo))
      (failed known error) post cut) :
    Triple False (Under client operations start (Advancing site client done (operation :: todo)))
      (mutateTarget site client operation reservations next failed) post cut := by
  have begun : ∀ state, Under client operations start (Advancing site client done (operation :: todo)) state →
      Under client operations start (fun state => Working site client done operation todo state ∧ operation.Fresh state) state :=
    fun _ holds => holds.weaken fun _ advancing => ⟨advancing.working, advancing.todo operation mem_cons_self⟩
  have finished : ∀ state, Under client operations start (fun state =>
      Working site client done operation todo state ∧ operation.Done state) state →
        Under client operations start (Advancing site client (done ++ [operation]) todo) state :=
    fun _ holds => holds.weaken fun _ both => both.1.advance both.2
  have ends : ∀ known, Triple False (Under client operations start fun state =>
      Working site client done operation todo state ∧ operation.Done state) (next known) post cut :=
    fun known => (continues known).strengthen finished
  unfold mutateTarget
  split
  · next creation =>
    have reserved : Triple False (Under client operations start (Advancing site client done (operation :: todo)))
        ((Program.check fun state => demand (state.targets operation.target).isNone (.fileSystem "The target exists")).bind
          fun _ => (reserveTarget site client operation.target).bind fun _ =>
            .observe fun state => state.targets operation.target : Action (Option AdapterFile))
        (fun _ => Under client operations start fun state => Working site client done operation todo state ∧
          operation.Reserving site state)
        (Under client operations start (Working site client done operation todo)) := by
      apply Triple.bind (check_pass fun _ holds => (begun _ holds).weaken fun _ => And.left)
      intro _
      apply Triple.bind ((reserveTarget_triple split creation).strengthen begun)
      intro _
      exact Triple.observe fun _ => id
    refine Triple.attempt reserved stops (fun reservation => ?_) (abandons _)
    have installed := (@installStaged_triple site _ _ _ _ _ start split (by rw [creation]; decide)).strengthen
      (fun state (holds : Under client operations start (fun state => Working site client done operation todo state ∧
        operation.Reserving site state) state) => holds.weaken fun _ both => ⟨both.1, .inr both.2⟩)
    exact Triple.attempt installed stops (fun _ => ends _) (abandons _)
  · next replacement =>
    have installed := (@installStaged_triple site _ _ _ _ _ start split (by rw [replacement]; decide)).strengthen
      (fun state holds => (begun state holds).weaken fun _ both => ⟨both.1, .inl both.2⟩)
    exact Triple.attempt installed stops (fun _ => ends _) (abandons _)
  · next removal =>
    have moved := (@moveTarget_triple site _ _ _ _ _ start split removal).strengthen begun
    exact Triple.attempt moved stops (fun _ => ends _) (abandons _)

end

end

/-! Restoring. -/

section
variable {site : Site} {client : AgentClient} {operations : List Operation} {operation : Operation} {start : ProjectState}

/-- A resting transaction whose manifest is not in the way of the operation. -/
def Restorable (site : Site) (client : AgentClient) (operations : List Operation) (operation : Operation) (state : ProjectState) : Prop :=
  Resting site client operations state ∧
    (Quiet site client operations state ∨ operation.target = manifestPath site client)

def Survives (site : Site) (client : AgentClient) (operations : List Operation) (operation : Operation)
    (kept : ProjectState → Prop) : Prop :=
  ∀ before after, kept before → Resting site client operations before → Elsewhere operation before after →
    operation.Steady after → after.hashAt operation.target = operation.expected → kept after

/-- The program restores the operation and keeps an assertion that survives it. -/
def Restores (site : Site) (client : AgentClient) (operations : List Operation) (operation : Operation) (start : ProjectState)
    (total : Prop) (current kept : ProjectState → Prop) (program : Action Unit) : Prop :=
  Triple total (Under client operations start fun state =>
      Restorable site client operations operation state ∧ kept state ∧ current state) program
    (fun _ => Under client operations start fun state =>
      (Resting site client operations state ∧ Quiet site client operations state) ∧ kept state ∧
        state.hashAt operation.target = operation.expected)
    (Under client operations start (Resting site client operations))

theorem restore_step {total : Prop} {current kept : ProjectState → Prop} {effect : ProjectState → ProjectState}
    (member : operation ∈ operations) (footprint : ∀ state, Footprint client operation state (effect state))
    (survives : Survives site client operations operation kept)
    (goes : ∀ state, Resting site client operations state → current state →
      operation.Unspoiled (effect state) ∧ (effect state).hashAt operation.target = operation.expected) :
    Restores site client operations operation start total current kept (.perform (.atomic effect)) := by
  apply Triple.perform
  intro state holds
  obtain ⟨⟨resting, order⟩, before, now⟩ := holds.phase
  obtain ⟨unspoiled, target⟩ := goes state resting now
  have elsewhere := (footprint state).toElsewhere
  have restored := resting.restore member order elsewhere unspoiled target
  have after := survives state _ before resting elsewhere (unspoiled.steady (resting.shaped operation member) target) target
  have within := holds.within.step member resting.intent (footprint state)
  have retired := (footprint state).retired.trans holds.retired
  have held : Under client operations start (Resting site client operations) state := ⟨resting, holds.within, holds.retired⟩
  exact ⟨⟨⟨restored, after, target⟩, within, retired⟩, held, ⟨restored.1, within, retired⟩, fun _ => held⟩

theorem replaceTarget_restores {total : Prop} {current kept : ProjectState → Prop} (member : operation ∈ operations)
    (kind : EvidenceKind) (survives : Survives site client operations operation kept)
    (source : ∀ state, Resting site client operations state → current state →
      operation.Unspoiled state ∧ state.evidenceHash kind operation.index = operation.expected) :
    Restores site client operations operation start total current kept (replaceTarget client kind operation.index operation.target) := by
  refine restore_step member (fun state => ?_) survives fun state resting now => ?_
  · exact target_footprint state ((setTarget_elsewhere _).trans (setEvidence_elsewhere kind none)) rfl rfl rfl
  · obtain ⟨unspoiled, hash⟩ := source state resting now
    constructor
    · apply unspoiled.less
      intro other
      by_cases same : other = kind
      · subst same
        exact .inr (state.setEvidence_self other operation.index none)
      · exact .inl (state.setEvidence_kind same operation.index operation.index none)
    · have target := state.setTarget_self operation.target (state.evidence kind operation.index)
      rw [← hash, ProjectState.hashAt, ProjectState.evidenceHash]
      exact congrArg _ target

theorem unlinkTarget_restores {total : Prop} {current kept : ProjectState → Prop} (member : operation ∈ operations)
    (created : operation.expected = none) (survives : Survives site client operations operation kept)
    (source : ∀ state, Resting site client operations state → current state → operation.Unspoiled state) :
    Restores site client operations operation start total current kept (unlinkTarget client operation.target) := by
  refine restore_step member (fun state => ?_) survives fun state resting now => ?_
  · exact target_footprint state (setTarget_elsewhere none) rfl rfl rfl
  · refine ⟨(source state resting now).less fun _ => .inl rfl, ?_⟩
    have target := state.setTarget_self operation.target none
    rw [created, ProjectState.hashAt]
    exact congrArg _ target

end

/-! Rollback. -/

section
variable {site : Site} {client : AgentClient} {operations : List Operation} {operation : Operation} {start : ProjectState}

/-- One round of the rollback; behind a round that went through, the manifest is not in the way. -/
theorem rollbackTarget_triple {mutation : FileMutation} (member : operation ∈ operations)
    (origin : operation = mutation.toOperation operation.index) (reservations : List (Nat × AdapterFile)) :
    Triple False (Under client operations start (Restorable site client operations operation))
      (rollbackTarget client mutation operation reservations)
      (fun restored => Under client operations start fun state => Resting site client operations state ∧
        (restored = true → Quiet site client operations state))
      (Under client operations start (Resting site client operations)) := by
  have path : mutation.path = operation.target := by rw [origin]; rfl
  have preimage : mutation.expected.map (·.contentHash) = operation.expected := by rw [origin]; rfl
  have postimage : mutation.desired = operation.postimage := by rw [origin]; rfl
  have stops : ∀ state, Under client operations start (Restorable site client operations operation) state →
      Under client operations start (Resting site client operations) state := fun _ holds => holds.weaken fun _ => And.left
  have gives_up : ∀ state, Under client operations start (Restorable site client operations operation) state →
      Under client operations start (fun state => Resting site client operations state ∧
        (false = true → Quiet site client operations state)) state :=
    fun _ holds => holds.weaken fun _ both => ⟨both.1, fun held => by cases held⟩
  have settle : ∀ state, Under client operations start (fun state =>
      (Resting site client operations state ∧ Quiet site client operations state) ∧ True ∧
        state.hashAt operation.target = operation.expected) state →
      Under client operations start (fun state => Resting site client operations state ∧
        (true = true → Quiet site client operations state)) state :=
    fun _ holds => holds.weaken fun _ all => ⟨all.1.1, fun _ => all.1.2⟩
  unfold rollbackTarget
  apply Triple.bind (heartbeat_keep stops)
  intro _
  rw [path]
  apply Triple.bind observe_keep
  intro current
  have already : ∀ state, Under client operations start (Restorable site client operations operation) state →
      state.hashAt operation.target = operation.expected →
        Under client operations start (fun state => Resting site client operations state ∧
          (true = true → Quiet site client operations state)) state := by
    intro state holds target
    have quiet := holds.phase.1.quiet member holds.phase.2 (Elsewhere.refl operation state) target
    exact ⟨⟨holds.phase.1, fun _ => quiet⟩, holds.within, holds.retired⟩
  split
  · next same =>
    apply Triple.ret
    intro state holds
    apply already state holds.1
    rw [ProjectState.hashAt, holds.2, same, preimage]
  split
  · next file expected =>
    dsimp only
    generalize (if operation.operation = .delete then EvidenceKind.removed else .verified) = kind
    have known : operation.expected = some file.contentHash := by rw [← preimage, expected]; rfl
    apply Triple.bind observe_keep
    intro source
    split
    · next ready =>
      have restored := @replaceTarget_restores site client _ _ start False (fun state =>
        state.targets operation.target = current ∧ state.evidenceHash kind operation.index = source) (fun _ => True)
        member kind (fun _ _ _ _ _ _ _ => trivial) fun state resting now => by
          have shaped := resting.shaped operation member
          refine ⟨?_, by rw [now.2, ready.1, known]⟩
          rcases resting.each operation member with steady | ⟨creation, _⟩ | ⟨removal, target, _⟩
          · exact steady.unspoiled
          · have absent := (shaped.create creation).1
            rw [known] at absent
            cases absent
          · have gone : state.hashAt operation.target = none := by
              rw [ProjectState.hashAt, now.1, ready.2, postimage, (shaped.delete removal).2]
            rw [known, gone] at target
            cases target
      refine Triple.bind (restored.strengthen (fun state holds => ?_)) fun _ => Triple.ret settle
      exact ⟨⟨holds.1.1.phase, trivial, holds.1.2, holds.2⟩, holds.1.1.within, holds.1.1.retired⟩
    · exact Triple.ret fun state holds => gives_up state holds.1.1
  · next expected =>
    have created : operation.expected = none := by rw [← preimage, expected]; rfl
    split
    · apply Triple.ret
      intro state holds
      apply already state holds.1
      rw [ProjectState.hashAt, holds.2, created]
      rfl
    split
    · have removed := @unlinkTarget_restores site client _ _ start False (fun _ => True) (fun _ => True)
        member created (fun _ _ _ _ _ _ _ => trivial) fun state resting _ => by
          rcases resting.each operation member with steady | reserving
          · exact steady.unspoiled
          · exact reserving.unspoiled (resting.shaped operation member) created
      refine Triple.bind (removed.strengthen (fun state holds => ?_)) fun _ => Triple.ret settle
      exact ⟨⟨holds.1.phase, trivial, trivial⟩, holds.1.within, holds.1.retired⟩
    · exact Triple.ret fun state holds => gives_up state holds.1

/-- The rounds go from the last mutation to the first, so the manifest comes first or was not touched. -/
theorem rollbackTargets_triple (reservations : List (Nat × AdapterFile)) (rounds : List (FileMutation × Operation))
    (inside : ∀ round ∈ rounds, round.2 ∈ operations ∧ round.2 = round.1.toOperation round.2.index) :
    Triple False (Under client operations start fun state => Resting site client operations state ∧
        (Quiet site client operations state ∨ ∀ round ∈ rounds.head?, round.2.target = manifestPath site client))
      (rollbackTargets client reservations rounds) (fun _ => Under client operations start (Resting site client operations))
      (Under client operations start (Resting site client operations)) := by
  induction rounds with
  | nil => exact Triple.ret fun _ holds => holds.weaken fun _ => And.left
  | cons round rest ih =>
    obtain ⟨mutation, operation⟩ := round
    obtain ⟨member, origin⟩ := inside _ mem_cons_self
    have one := @rollbackTarget_triple site client _ _ start _ member origin reservations
    unfold rollbackTargets
    refine Triple.bind (one.strengthen (fun state holds => ?_)) fun restored => ?_
    · exact holds.weaken fun _ both => ⟨both.1, both.2.imp id fun head => head (mutation, operation) rfl⟩
    split
    · next through =>
      exact (ih fun round later => inside round (mem_cons_of_mem _ later)).strengthen
        (fun _ holds => holds.weaken fun _ both => ⟨both.1, .inl (both.2 through)⟩)
    · exact Triple.ret fun _ holds => holds.weaken fun _ => And.left

end

/-! Resolution in the process. -/

/-- The intent is retired with the targets on one side. -/
structure Retired (client : AgentClient) (operations : List Operation) (start : ProjectState) (resolved : ResolvedState)
    (state : ProjectState) : Prop where
  settled : Settled operations resolved state
  within : Within client operations start state
  retired : state.retired = Function.update start.retired client (some operations)

section
variable {site : Site} {client : AgentClient} {operations : List Operation} {start : ProjectState} {resolved : ResolvedState}

theorem Settled.change {state after : ProjectState} (settled : Settled operations resolved state)
    (intent : after.intent = state.intent) (targets : after.targets = state.targets) : Settled operations resolved after := by
  refine ⟨intent.trans settled.intent, ?_⟩
  have reached := settled.reached
  unfold allMatch ProjectState.hashAt at reached ⊢
  rwa [targets]

theorem Retired.stopped {state : ProjectState} (retired : Retired client operations start resolved state) :
    Stopped site client operations start state := ⟨.behind resolved retired.settled retired.retired, retired.within⟩

theorem retireIntent_triple {total : Prop} :
    Triple total (Under client operations start fun state =>
        Resting site client operations state ∧ allMatch operations resolved state = true)
      (retireIntent client operations) (fun _ => Retired client operations start resolved)
      (Stopped site client operations start) := by
  apply Triple.perform
  intro state holds
  have retired : Retired client operations start resolved { state with
      intent := .absent
      retired := Function.update state.retired client (some operations) } :=
    ⟨⟨rfl, holds.phase.2⟩, holds.within.evidence rfl rfl rfl rfl, by rw [← holds.retired]⟩
  have held := (holds.weaken fun _ => And.left).stopped
  exact ⟨retired, held, retired.stopped, fun _ => held⟩

theorem unlinkEvidence_retired {total : Prop} (kind : EvidenceKind) (index : Nat) :
    Triple total (Retired client operations start resolved) (unlinkEvidence kind index)
      (fun _ => Retired client operations start resolved) (Stopped site client operations start) :=
  atomic_keep (fun _ retired => ⟨retired.settled.change rfl rfl, retired.within.evidence rfl rfl rfl rfl, retired.retired⟩)
    fun _ => Retired.stopped

theorem resolveAndCleanup_triple {mutations : List FileMutation} (same : operationsOf mutations = operations)
    (planTargets : List (String × Option AdapterFile)) :
    Triple False (Under client operations start (Resting site client operations))
      (resolveAndCleanup client mutations resolved planTargets) (fun _ => Retired client operations start resolved)
      (Stopped site client operations start) := by
  subst same
  have stops : ∀ state, Under client (operationsOf mutations) start (Resting site client (operationsOf mutations)) state →
      Stopped site client (operationsOf mutations) start state := fun _ => Under.stopped
  have finished : ∀ state, Retired client (operationsOf mutations) start resolved state →
      Stopped site client (operationsOf mutations) start state := fun _ => Retired.stopped
  unfold resolveAndCleanup
  apply Triple.bind (heartbeat_keep stops)
  intro _
  apply Triple.bind (check_pass stops)
  intro _
  apply Triple.bind (check_pass stops)
  intro _
  apply Triple.bind (check_pass stops)
  intro _
  apply Triple.bind (check_pass stops)
  intro artifacts
  apply Triple.bind (heartbeat_keep stops)
  intro _
  apply Triple.bind (check_pass stops)
  intro _
  apply Triple.bind (demand_known stops)
  intro _
  apply Triple.bind (check_pass fun _ holds => stops _ holds.1)
  intro _
  apply Triple.bind (retireIntent_triple.strengthen
    (fun _ holds => ⟨⟨holds.1.phase, holds.2⟩, holds.1.within, holds.1.retired⟩))
  intro _
  have swept : Triple False (Retired client (operationsOf mutations) start resolved)
      (.forEach (fun artifact : EvidenceKind × Nat => heartbeat.bind fun _ => unlinkEvidence artifact.1 artifact.2) artifacts)
      (fun _ => Retired client (operationsOf mutations) start resolved) (Stopped site client (operationsOf mutations) start) :=
    Triple.forEach_keep artifacts fun artifact _ =>
      Triple.bind (heartbeat_keep finished) fun _ => unlinkEvidence_retired artifact.1 artifact.2
  apply Triple.bind swept
  intro _
  exact removeDirectories_keep finished

end

/-! The operations of the mutations. -/

section
variable {site : Site} {client : AgentClient} {mutations : List FileMutation} {operations : List Operation} {state : ProjectState}

@[simp] theorem length_operationsOf (mutations : List FileMutation) : (operationsOf mutations).length = mutations.length := by
  simp [operationsOf]

@[simp] theorem targets_operationsOf (mutations : List FileMutation) :
    (operationsOf mutations).map (·.target) = mutations.map (·.path) := by
  apply ext_getElem
  · simp
  · intro place bound other
    simp [operationsOf, FileMutation.toOperation]

@[simp] theorem indices_operationsOf (mutations : List FileMutation) :
    (operationsOf mutations).map (·.index) = List.range mutations.length := by
  apply ext_getElem
  · simp
  · intro place bound other
    simp [operationsOf, FileMutation.toOperation]

theorem mem_operationsOf {operation : Operation} (member : operation ∈ operationsOf mutations) :
    ∃ entry ∈ mutations.zipIdx, operation = entry.1.toOperation entry.2 := by
  obtain ⟨entry, inside, made⟩ := mem_map.mp member
  exact ⟨entry, inside, made.symm⟩

theorem index_operationsOf {done todo : List Operation} {operation : Operation}
    (split : operationsOf mutations = done ++ operation :: todo) : operation.index = done.length := by
  have indices := indices_operationsOf mutations
  rw [split, map_append, map_cons] at indices
  have here := congrArg (fun list => list[done.length]?) indices
  simp only [getElem?_append_right (by simp : (done.map (·.index)).length ≤ done.length), length_map, Nat.sub_self,
    getElem?_cons_zero] at here
  have bound : done.length < mutations.length := by
    have lengths := congrArg List.length split
    simp at lengths
    omega
  rw [getElem?_range bound] at here
  exact Option.some_inj.mp here

theorem mem_zip_operationsOf {round : FileMutation × Operation} (member : round ∈ mutations.zip (operationsOf mutations)) :
    round.2 ∈ operationsOf mutations ∧ round.2 = round.1.toOperation round.2.index := by
  refine ⟨(of_mem_zip member).2, ?_⟩
  obtain ⟨place, bound, found⟩ := getElem_of_mem member
  rw [getElem_zip] at found
  rw [← found]
  simp [operationsOf, FileMutation.toOperation]

theorem rounds_ready (arranged : Arranged site client (operationsOf mutations)) (applied : Nat)
    (fresh : ∀ operation ∈ (operationsOf mutations).drop applied, operation.Fresh state) :
    Quiet site client (operationsOf mutations) state ∨
      ∀ round ∈ (((mutations.zip (operationsOf mutations)).take applied).reverse).head?,
        round.2.target = manifestPath site client := by
  by_cases short : applied < (operationsOf mutations).length
  · left
    intro operation member manifest reached
    have final := arranged.final member manifest
    have behind : operation ∈ (operationsOf mutations).drop applied := by
      apply mem_of_getLast?
      rw [getLast?_drop, if_neg (by omega)]
      exact final
    exact reached.symm.trans (fresh operation behind).target
  · right
    intro round head
    have whole : (mutations.zip (operationsOf mutations)).take applied = mutations.zip (operationsOf mutations) := by
      apply take_of_length_le
      rw [length_zip]
      rw [length_operationsOf] at short ⊢
      omega
    rw [whole, head?_reverse] at head
    have seconds : (mutations.zip (operationsOf mutations)).map (·.2) = operationsOf mutations :=
      map_snd_zip (by simp)
    have last : (operationsOf mutations).getLast? = some round.2 := by
      rw [← seconds, getLast?_map, head]
      rfl
    have ends := arranged.last
    rw [last] at ends
    exact Option.some_inj.mp ends

end
end Workctx.Installs
