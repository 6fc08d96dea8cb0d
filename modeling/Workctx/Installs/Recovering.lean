import Workctx.Installs.Forward

/-! `recover_transaction`, stopped anywhere, and when it goes through. -/

namespace Workctx.Installs
open Workctx.Durable List

section
variable {total : Prop} {pre cut : ProjectState → Prop}

theorem demand_able {test : ProjectState → Bool} {error : InstallError} (stops : ∀ state, pre state → cut state)
    (able : total → ∀ state, pre state → test state = true) :
    Triple total pre (.check fun state => demand (test state) error : Action Unit)
      (fun _ state => pre state ∧ test state = true) cut := by
  have passed : Triple total pre (.check fun state => demand (test state) error : Action Unit)
      (fun value state => pre state ∧ demand (test state) error = .ok value) cut :=
    Triple.check_keep stops fun must state holds => ⟨(), by rw [able must state holds]; rfl⟩
  exact passed.ensuring (fun _ _ both => ⟨both.1, demand_ok both.2⟩)

theorem check_able {α : Type} {view : ProjectState → Except InstallError α} (stops : ∀ state, pre state → cut state)
    (able : total → ∀ state, pre state → ∃ value, view state = .ok value) :
    Triple total pre (.check view : Action α) (fun value state => pre state ∧ view state = .ok value) cut :=
  Triple.check_keep stops able

end

section
variable {total : Prop} {site : Site} {client : AgentClient} {operations : List Operation} {operation : Operation}
  {start : ProjectState} {pre cut : ProjectState → Prop} {authority : ProjectState → Except InstallError Unit}

structure Recovered (operations done : List Operation) (state : ProjectState) : Prop where
  steady : ∀ operation ∈ operations, operation.Steady state
  back : ∀ operation ∈ done, operation ∈ operations ∧ state.hashAt operation.target = operation.expected

theorem Recovered.survives {done : List Operation} (member : operation ∈ operations) :
    Survives site client operations operation (Recovered operations done) := by
  intro before after recovered resting elsewhere steady target
  refine ⟨fun other inside => ?_, fun other earlier => ?_⟩
  · by_cases same : other = operation
    · rwa [same]
    · exact (recovered.steady other inside).same (elsewhere.same resting.toSeparate member inside same)
  · obtain ⟨inside, back⟩ := recovered.back other earlier
    refine ⟨inside, ?_⟩
    by_cases same : other = operation
    · rwa [same]
    · rw [(elsewhere.same resting.toSeparate member inside same).hashAt]
      exact back

theorem fence_able (stops : ∀ state, pre state → cut state)
    (intent : ∀ state, pre state → state.intent = .written client operations) :
    Triple total pre (fence client operations) (fun _ => pre) cut := by
  apply Triple.bind (heartbeat_keep stops)
  intro _
  exact (demand_able stops fun _ state holds => by rw [intent state holds]; exact beq_self_eq_true _).forget

theorem requireUnchangedIntent_able (stops : ∀ state, pre state → cut state)
    (intent : ∀ state, pre state → state.intent = .written client operations) :
    Triple total pre (requireUnchangedIntent client operations) (fun _ => pre) cut :=
  (demand_able stops fun _ state holds => by rw [intent state holds]; exact beq_self_eq_true _).forget

theorem authority_able (permits : total → ∀ state, state.records = start.records → authority state = .ok ())
    (stops : ∀ state, pre state → cut state) (within : ∀ state, pre state → Within client operations start state) :
    Triple total pre (.check authority : Action Unit) (fun _ => pre) cut :=
  (check_able stops fun must state holds => ⟨(), permits must state (within state holds).records⟩).forget

theorem validateInternalFiles_able (stops : ∀ state, pre state → cut state)
    (steady : total → ∀ state, pre state → ∀ operation ∈ operations, operation.Steady state) :
    Triple total pre (validateInternalFiles operations)
      (fun _ state => pre state ∧ (operations.all (internalFilesValid state)) = true) cut :=
  demand_able stops fun must state holds => all_eq_true.mpr fun operation member =>
    Operation.internalFilesValid_iff.mpr (steady must state holds operation member).evidence

theorem requireRecordedTarget_able (stops : ∀ state, pre state → cut state)
    (recorded : total → ∀ state, pre state → operation.Recorded state) :
    Triple total pre (requireRecordedTarget operation) (fun _ state => pre state ∧ operation.Recorded state) cut := by
  refine (demand_able stops fun must state holds => ?_).ensuring (fun _ state both => ⟨both.1, ?_⟩)
  · rw [Bool.or_eq_true, beq_iff_eq, beq_iff_eq]
    exact recorded must state holds
  · have passed := both.2
    rw [Bool.or_eq_true, beq_iff_eq, beq_iff_eq] at passed
    exact passed

theorem preimageEvidence_ok {state : ProjectState} {kind : EvidenceKind}
    (chosen : preimageEvidence operation state = .ok kind) : state.evidenceHash kind operation.index = operation.expected := by
  have choose : ∀ kinds, preimageEvidence.choose operation state kinds = .ok kind →
      state.evidenceHash kind operation.index = operation.expected := by
    intro kinds
    induction kinds with
    | nil => intro found; cases found
    | cons first rest ih =>
      intro found
      rw [preimageEvidence.choose] at found
      cases present : state.evidence first operation.index with
      | none => rw [present] at found; exact ih found
      | some file =>
        rw [present] at found
        dsimp only at found
        split at found
        · next same =>
          cases found
          rw [ProjectState.evidenceHash, present]
          exact same
        · cases found
  exact choose _ chosen

theorem Steady.preimage {state : ProjectState} (steady : operation.Steady state) (present : operation.expected.isSome = true)
    (moved : state.hashAt operation.target ≠ operation.expected) : ∃ kind, preimageEvidence operation state = .ok kind := by
  have there : ∀ kind, kind ≠ .staged → (kind, operation.expected) ∈ operation.artifacts →
      ∃ file, state.evidence kind operation.index = some file ∧ some file.contentHash = operation.expected := by
    intro kind other member
    rcases steady.evidence _ member with ⟨here, hash⟩ | ⟨_, back | ⟨staged, _⟩⟩
    · obtain ⟨file, found⟩ := Option.isSome_iff_exists.mp here
      refine ⟨file, found, ?_⟩
      dsimp only at hash found
      rw [← hash, ProjectState.evidenceHash, found]
      rfl
    · exact absurd back moved
    · exact absurd staged other
  unfold preimageEvidence
  by_cases removal : operation.operation = .delete
  · obtain ⟨file, found, hash⟩ := there .removed (by decide) (Operation.mem_artifacts.mpr (.inr (.inr ⟨rfl, removal⟩)))
    exact ⟨.removed, by simp [removal, preimageEvidence.choose, found, hash]⟩
  · obtain ⟨file, found, hash⟩ := there .verified (by decide) (Operation.mem_artifacts.mpr (.inr (.inl ⟨rfl, present⟩)))
    exact ⟨.verified, by simp [removal, preimageEvidence.choose, found, hash]⟩

/-- A resting transaction that goes back: the manifest first, and some targets already. -/
def Returning (site : Site) (client : AgentClient) (operations done : List Operation) (state : ProjectState) : Prop :=
  (Resting site client operations state ∧ Quiet site client operations state) ∧ Recovered operations done state

theorem recoverTarget_triple {done : List Operation} (member : operation ∈ operations)
    (permits : total → ∀ state, state.records = start.records → authority state = .ok ()) :
    Triple total (Under client operations start (Returning site client operations done))
      (recoverTarget client operations (.check authority) operation)
      (fun _ => Under client operations start (Returning site client operations (done ++ [operation])))
      (Stopped site client operations start) := by
  have stops : ∀ state, Under client operations start (Returning site client operations done) state →
      Stopped site client operations start state := fun _ holds => (holds.weaken fun _ returning => returning.1.1).stopped
  have intent : ∀ state, Under client operations start (Returning site client operations done) state →
      state.intent = .written client operations := fun _ holds => holds.phase.1.1.intent
  have within : ∀ state, Under client operations start (Returning site client operations done) state →
      Within client operations start state := fun _ holds => holds.within
  have recorded : ∀ state, Under client operations start (Returning site client operations done) state →
      operation.Recorded state := fun _ holds => (holds.phase.2.steady operation member).recorded
  have join : ∀ state, Under client operations start (Returning site client operations done) state →
      state.hashAt operation.target = operation.expected →
        Under client operations start (Returning site client operations (done ++ [operation])) state := by
    refine fun state holds target => ⟨⟨holds.phase.1, holds.phase.2.steady, fun other earlier => ?_⟩, holds.within, holds.retired⟩
    rcases mem_append.mp earlier with before | same
    · exact holds.phase.2.back other before
    · rw [mem_singleton.mp same]
      exact ⟨member, target⟩
  have restored : ∀ state, Under client operations start (fun state =>
      (Resting site client operations state ∧ Quiet site client operations state) ∧ Recovered operations done state ∧
        state.hashAt operation.target = operation.expected) state →
      Under client operations start (Returning site client operations (done ++ [operation])) state :=
    fun state holds => join state (holds.weaken fun _ all => ⟨all.1, all.2.1⟩) holds.phase.2.2
  have again : ∀ state, Under client operations start (Returning site client operations (done ++ [operation])) state →
      state.hashAt operation.target = operation.expected := fun _ holds => (holds.phase.2.back operation (by simp)).2
  have after : ∀ state, Under client operations start (Returning site client operations (done ++ [operation])) state →
      Stopped site client operations start state := fun _ holds => (holds.weaken fun _ returning => returning.1.1).stopped
  unfold recoverTarget
  apply Triple.bind (fence_able stops intent)
  intro _
  apply Triple.bind (requireRecordedTarget_able stops fun _ => recorded).forget
  intro _
  apply Triple.bind observe_keep
  intro settled
  split
  · next back =>
    refine Triple.ret fun state holds => join state holds.1 ?_
    exact beq_iff_eq.mp (holds.2.trans back)
  next moved =>
  -- The target is in its postimage from here on.
  let away (state : ProjectState) : Prop := state.hashAt operation.target ≠ operation.expected
  have apart : ∀ state, Under client operations start (Returning site client operations done) state ∧
      (state.hashAt operation.target == operation.expected) = settled →
        Under client operations start (Returning site client operations done) state ∧ away state := by
    refine fun state holds => ⟨holds.1, fun same => moved ?_⟩
    rw [← holds.2, same]
    exact beq_self_eq_true _
  have post : ∀ state, Under client operations start (Returning site client operations done) state ∧ away state →
      (state.hashAt operation.target == operation.postimage) = true := by
    intro state holds
    exact beq_iff_eq.mpr ((recorded state holds.1).resolve_left holds.2)
  have halts : ∀ state, Under client operations start (Returning site client operations done) state ∧ away state →
      Stopped site client operations start state := fun state holds => stops state holds.1
  split
  · next created =>
    apply Triple.bind ((demand_able halts fun _ => post).weaken apart (fun _ _ both => both.1) fun _ => id)
    intro _
    apply Triple.bind (authority_able permits halts fun state holds => within state holds.1)
    intro _
    have removed := @unlinkTarget_restores site client _ _ start total (Recovered operations done) (Recovered operations done) member
      created (Recovered.survives member)
      fun state _ recovered => (recovered.steady operation member).unspoiled
    apply Triple.bind (removed.weaken (fun _ holds => holds.1.weaken fun _ returning =>
      ⟨⟨returning.1.1, .inl returning.1.2⟩, returning.2, returning.2⟩) (fun _ => restored)
        fun _ holds => Under.stopped holds)
    intro _
    refine (demand_able after fun _ state holds => ?_).forget
    have target := again state holds
    rw [created, ProjectState.hashAt, Option.map_eq_none_iff] at target
    rw [target]
    rfl
  · next hash expected =>
    have present : operation.expected.isSome = true := by rw [expected]; rfl
    have chosen : Triple total (fun state => Under client operations start (Returning site client operations done) state ∧ away state)
        (.check (preimageEvidence operation) : Action EvidenceKind)
        (fun kind state => (Under client operations start (Returning site client operations done) state ∧ away state) ∧
          preimageEvidence operation state = .ok kind) (Stopped site client operations start) :=
      check_able halts fun _ state holds => Steady.preimage (holds.1.phase.2.steady operation member) present holds.2
    apply Triple.bind (chosen.strengthen apart)
    intro kind
    have held : ∀ state, (Under client operations start (Returning site client operations done) state ∧ away state) ∧
        preimageEvidence operation state = .ok kind → Stopped site client operations start state := fun state holds => halts state holds.1
    apply Triple.bind (requireRecordedTarget_able held fun _ state holds => recorded state holds.1.1).forget
    intro _
    apply Triple.bind (demand_able held fun _ state holds => post state holds.1).forget
    intro _
    apply Triple.bind (demand_able held fun _ state holds => beq_iff_eq.mpr (preimageEvidence_ok holds.2)).forget
    intro _
    apply Triple.bind (authority_able permits held fun state holds => within state holds.1.1)
    intro _
    have replaced := @replaceTarget_restores site client _ _ start total
      (fun state => Recovered operations done state ∧ preimageEvidence operation state = .ok kind) (Recovered operations done) member
      kind (Recovered.survives member)
      fun state _ both => ⟨(both.1.steady operation member).unspoiled, preimageEvidence_ok both.2⟩
    apply Triple.bind (replaced.weaken (fun _ holds => ⟨⟨⟨holds.1.1.phase.1.1, .inl holds.1.1.phase.1.2⟩, holds.1.1.phase.2,
      holds.1.1.phase.2, holds.2⟩, holds.1.1.within, holds.1.1.retired⟩) (fun _ => restored) fun _ holds => Under.stopped holds)
    intro _
    exact (demand_able after fun _ state holds => beq_iff_eq.mpr (again state holds)).forget

/-- The intent is retired and the evidence is as it was recorded, or gone. -/
def Swept (client : AgentClient) (operations : List Operation) (start : ProjectState) (resolved : ResolvedState)
    (state : ProjectState) : Prop :=
  Retired client operations start resolved state ∧ ∀ operation ∈ operations, operation.Unspoiled state

theorem unlinkEvidence_swept {resolved : ResolvedState} (kind : EvidenceKind) (index : Nat) :
    Triple total (Swept client operations start resolved) (unlinkEvidence kind index)
      (fun _ => Swept client operations start resolved) (Stopped site client operations start) := by
  refine atomic_keep (fun state swept => ⟨⟨swept.1.settled.change rfl rfl, swept.1.within.evidence rfl rfl rfl rfl,
    swept.1.retired⟩, fun operation member => (swept.2 operation member).less fun other => ?_⟩) fun _ swept => swept.1.stopped
  by_cases same : other = kind ∧ operation.index = index
  · obtain ⟨rfl, rfl⟩ := same
    exact .inr (state.setEvidence_self other operation.index none)
  · exact .inl (state.setEvidence_other (not_and_or.mp same) none)

theorem cleanArtifact_triple {resolved : ResolvedState} (member : operation ∈ operations)
    {artifact : EvidenceKind × Option String} (inside : artifact ∈ operation.artifacts) :
    Triple total (Swept client operations start resolved) (cleanArtifact operation.index artifact)
      (fun _ => Swept client operations start resolved) (Stopped site client operations start) := by
  have stops : ∀ state, Swept client operations start resolved state → Stopped site client operations start state :=
    fun _ swept => swept.1.stopped
  unfold cleanArtifact
  apply Triple.bind (heartbeat_keep stops)
  intro _
  apply Triple.bind observe_keep
  intro present
  split
  · next there =>
    have recorded : ∀ state, Swept client operations start resolved state ∧
        (state.evidence artifact.1 operation.index).isSome = present →
          (state.evidenceHash artifact.1 operation.index == artifact.2) = true := by
      intro state holds
      rcases holds.1.2 operation member artifact inside with gone | hash
      · have here := holds.2.trans there
        rw [gone] at here
        cases here
      · exact beq_iff_eq.mpr hash
    refine Triple.bind ((demand_able (fun _ holds => stops _ holds.1) fun _ => recorded).ensuring (fun _ _ both => both.1.1)) fun _ => unlinkEvidence_swept artifact.1 operation.index
  · exact Triple.ret fun _ holds => holds.1

theorem resolveRecovered_triple {resolved : ResolvedState}
    (permits : total → ∀ state, state.records = start.records → authority state = .ok ()) :
    Triple total (Under client operations start fun state => (Resting site client operations state ∧
        ∀ operation ∈ operations, operation.Steady state) ∧ allMatch operations resolved state = true)
      (resolveRecovered client operations resolved (.check authority)) (fun _ => Retired client operations start resolved)
      (Stopped site client operations start) := by
  let ready : ProjectState → Prop := Under client operations start fun state => (Resting site client operations state ∧
    ∀ operation ∈ operations, operation.Steady state) ∧ allMatch operations resolved state = true
  have stops : ∀ state, ready state → Stopped site client operations start state :=
    fun _ holds => (holds.weaken fun _ all => all.1.1).stopped
  have intent : ∀ state, ready state → state.intent = .written client operations := fun _ holds => holds.phase.1.1.intent
  have matched : Triple total ready (.check fun state => demand (allMatch operations resolved state)
      (.recoveryConflict "Recovered targets changed immediately before intent removal") : Action Unit) (fun _ => ready)
      (Stopped site client operations start) :=
    (demand_able stops fun _ _ holds => holds.phase.2).forget
  have valid : Triple total ready (validateInternalFiles operations) (fun _ => ready) (Stopped site client operations start) :=
    (validateInternalFiles_able stops fun _ _ holds => holds.phase.1.2).forget
  unfold resolveRecovered
  apply Triple.bind (fence_able stops intent)
  intro _
  apply Triple.bind (demand_able stops fun _ _ holds => holds.phase.2).forget
  intro _
  apply Triple.bind valid
  intro _
  apply Triple.bind (fence_able stops intent)
  intro _
  apply Triple.bind valid
  intro _
  apply Triple.bind matched
  intro _
  apply Triple.bind (requireUnchangedIntent_able stops intent)
  intro _
  apply Triple.bind (authority_able permits stops fun _ holds => holds.within)
  intro _
  apply Triple.bind matched
  intro _
  have retired : Triple total ready (retireIntent client operations) (fun _ => Swept client operations start resolved)
      (Stopped site client operations start) := by
    apply Triple.perform
    intro state holds
    have swept : Swept client operations start resolved { state with
        intent := .absent
        retired := Function.update state.retired client (some operations) } :=
      ⟨⟨⟨rfl, holds.phase.2⟩, holds.within.evidence rfl rfl rfl rfl, by rw [← holds.retired]⟩,
        fun operation member => (holds.phase.1.2 operation member).unspoiled.less fun _ => .inl rfl⟩
    exact ⟨swept, stops state holds, swept.1.stopped, fun _ => stops state holds⟩
  apply Triple.bind retired
  intro _
  have cleaned : Triple total (Swept client operations start resolved)
      (.forEach (fun operation => .forEach (cleanArtifact operation.index) operation.artifacts) operations.reverse)
      (fun _ => Swept client operations start resolved) (Stopped site client operations start) :=
    Triple.forEach_keep _ fun operation member => Triple.forEach_keep _ fun artifact inside =>
      cleanArtifact_triple (mem_reverse.mp member) inside
  apply Triple.bind cleaned
  intro _
  exact (removeDirectories_keep fun _ swept => swept.1.stopped).ensuring fun _ _ swept => swept.1

/-- A recovery that goes through has found every operation steady, and it leaves no intent. -/
theorem recoverOperations_triple (resting : Resting site client operations start)
    (able : total → ∀ operation ∈ operations, operation.Steady start)
    (permits : total → ∀ state, state.records = start.records → authority state = .ok ()) :
    Triple total (fun state => state = start) (recoverOperations site client operations (.check authority))
      (fun _ state => (∃ resolved, Retired client operations start resolved state) ∧
        ∀ operation ∈ operations, operation.Steady start) (Stopped site client operations start) := by
  have begun : Under client operations start (Resting site client operations) start := ⟨resting, Within.refl start, rfl⟩
  have stops : ∀ state, state = start → Stopped site client operations start state := fun _ same => same ▸ begun.stopped
  have intent : ∀ state, state = start → state.intent = .written client operations := fun _ same => same ▸ resting.intent
  have resolve : ∀ resolved, (∀ operation ∈ operations, operation.Steady start) →
      Triple total (Under client operations start fun state => (Resting site client operations state ∧
          ∀ operation ∈ operations, operation.Steady state) ∧ allMatch operations resolved state = true)
        ((resolveRecovered client operations resolved (.check authority)).bind fun _ => .ret (operations.map (·.target)))
        (fun _ state => (∃ resolved, Retired client operations start resolved state) ∧
          ∀ operation ∈ operations, operation.Steady start) (Stopped site client operations start) :=
    fun resolved steady => Triple.bind (resolveRecovered_triple permits) fun _ =>
      Triple.ret fun _ retired => ⟨⟨resolved, retired⟩, steady⟩
  unfold recoverOperations
  have within : ∀ state, state = start → Within client operations start state := fun _ same => by rw [same]; exact Within.refl start
  apply Triple.bind (authority_able permits stops within)
  intro _
  apply Triple.bind (fence_able stops intent)
  intro _
  apply Triple.bind (validateInternalFiles_able stops fun must _ same => same ▸ able must)
  intro _
  refine Triple.of_each fun first holds => ?_
  obtain ⟨rfl, valid⟩ := holds
  have sound : ∀ operation ∈ operations, ∀ artifact ∈ operation.artifacts, operation.Sound first artifact :=
    fun operation member => Operation.internalFilesValid_iff.mp (all_eq_true.mp valid operation member)
  apply Triple.bind observe_keep
  intro finished
  split
  · next through =>
    have all : ∀ state, state = first ∧ allMatch operations .postimage state = finished →
        allMatch operations .postimage first = true := fun state holds => by rw [← holds.1, holds.2]; exact through
    refine Triple.of_each fun now holds => ?_
    have post := all now holds
    have steady : ∀ operation ∈ operations, operation.Steady first :=
      fun operation member => ⟨.inr (allMatch_iff.mp post operation member), sound operation member⟩
    exact (resolve .postimage steady).strengthen (fun state same => by
      rw [same, holds.1]
      exact ⟨⟨⟨resting, steady⟩, post⟩, begun.within, rfl⟩)
  · next unfinished =>
    have here : ∀ state, state = first ∧ allMatch operations .postimage state = finished → state = first := fun _ => And.left
    -- The manifest is not committed, for then all targets were in their postimages.
    have back : total → ∀ state, state = first ∧ allMatch operations .postimage state = finished →
        (operations.all fun operation => operation.target != manifestPath site client ||
          state.hashAt operation.target == operation.expected) = true := by
      intro must state holds
      obtain ⟨rfl, test⟩ := holds
      rw [all_eq_true]
      intro operation member
      rw [Bool.or_eq_true, bne_iff_ne, beq_iff_eq]
      by_cases manifest : operation.target = manifestPath site client
      · right
        rcases (able must operation member).recorded with expected | post
        · exact expected
        · by_contra moved
          have all := resting.committed operation member manifest post fun same => moved (post.trans same)
          exact unfinished (test ▸ all)
      · exact .inl manifest
    apply Triple.bind (demand_able (fun state holds => stops state (here state holds)) back)
    intro _
    refine Triple.of_each fun again checked => ?_
    obtain ⟨⟨rfl, _⟩, expected⟩ := checked
    have quiet : Quiet site client operations again := by
      intro operation member manifest reached
      have one := all_eq_true.mp expected operation member
      rw [Bool.or_eq_true, bne_iff_ne, beq_iff_eq] at one
      exact reached.symm.trans (one.resolve_left (not_not_intro manifest))
    let seen (before _ : List Operation) (state : ProjectState) : Prop :=
      state = again ∧ ∀ operation ∈ before, operation.Recorded again
    have recorded : Triple total (seen [] operations) (.forEach requireRecordedTarget operations) (fun _ => seen operations [])
        (Stopped site client operations again) := by
      refine Triple.forEach operations fun before operation after split => ?_
      have member : operation ∈ operations := by rw [split]; simp
      refine (requireRecordedTarget_able (fun state holds => stops state holds.1)
        fun must state holds => holds.1 ▸ (able must operation member).recorded).ensuring (fun _ state both => ?_)
      refine ⟨both.1.1, fun other earlier => ?_⟩
      rcases mem_append.mp earlier with early | same
      · exact both.1.2 other early
      · rw [mem_singleton.mp same, ← both.1.1]
        exact both.2
    apply Triple.bind (recorded.strengthen (fun _ same => ⟨same, forall_mem_nil _⟩))
    intro _
    refine Triple.of_each fun last passed => ?_
    obtain ⟨rfl, each⟩ := passed
    have steady : ∀ operation ∈ operations, operation.Steady last := fun operation member => ⟨each operation member, sound operation member⟩
    let returning (before _ : List Operation) : ProjectState → Prop :=
      Under client operations last (Returning site client operations before)
    have recovered : Triple total (returning [] operations.reverse)
        (.forEach (recoverTarget client operations (.check authority)) operations.reverse)
        (fun _ => returning operations.reverse []) (Stopped site client operations last) :=
      Triple.forEach _ fun before operation after split =>
        recoverTarget_triple (mem_reverse.mp (by rw [split]; simp)) permits
    apply Triple.bind (recovered.strengthen (fun _ same => ?_))
    · intro _
      refine (resolve .expected steady).strengthen (fun _ holds => holds.weaken fun _ all => ?_)
      exact ⟨⟨all.1.1, all.2.steady⟩, allMatch_iff.mpr fun operation member => (all.2.back operation (mem_reverse.mpr member)).2⟩
    · rw [same]
      exact ⟨⟨⟨resting, quiet⟩, steady, forall_mem_nil _⟩, begun.within, rfl⟩

/-- `recover_transaction` of a resting transaction. -/
theorem recoverTransaction_triple (resting : Resting site client operations start) (expected : Option RecoveryTransition)
    (able : total → acceptsIntent site client operations = true ∧ (∀ operation ∈ operations, operation.Steady start) ∧
      ∀ transition, recoveryTransition site client operations = .ok transition → expected.isNone || expected == some transition)
    (permits : total → ∀ state, state.records = start.records → authority state = .ok ()) :
    Triple total (fun state => state = start) (recoverTransaction site client expected (.check authority))
      (fun _ state => (∃ resolved, Retired client operations start resolved state) ∧
        acceptsIntent site client operations = true ∧ ∀ operation ∈ operations, operation.Steady start)
      (Stopped site client operations start) := by
  have begun : Under client operations start (Resting site client operations) start := ⟨resting, Within.refl start, rfl⟩
  have stops : ∀ state, state = start → Stopped site client operations start state := fun _ same => same ▸ begun.stopped
  have parse : inspectTransactions site client start =
      if acceptsIntent site client operations = true then .ok (some operations)
      else .error (.invalidState "Transaction intent does not match its derived location") := by
    rw [inspectTransactions, resting.intent]
    simp
  have inspected : Triple total (fun state => state = start)
      (.check (inspectTransactions site client) : Action (Option (List Operation)))
      (fun found state => state = start ∧ found = some operations ∧ acceptsIntent site client operations = true)
      (Stopped site client operations start) := by
    refine (check_able stops fun must state same => ?_).ensuring (fun found state both => ?_)
    · rw [same, parse, if_pos (able must).1]
      exact ⟨_, rfl⟩
    · obtain ⟨same, parsed⟩ := both
      rw [same, parse] at parsed
      split at parsed
      · next accepted =>
        cases parsed
        exact ⟨same, rfl, accepted⟩
      · cases parsed
  unfold recoverTransaction
  apply Triple.bind inspected
  intro found
  refine Triple.of_each fun first holds => ?_
  obtain ⟨rfl, rfl, accepted⟩ := holds
  dsimp only
  apply Triple.bind (heartbeat_keep stops)
  intro _
  apply Triple.bind inspected
  intro current
  refine Triple.of_each fun second holds => ?_
  obtain ⟨rfl, rfl, _⟩ := holds
  apply Triple.bind (Triple.ensure_keep stops fun _ _ _ => beq_self_eq_true _).forget
  intro _
  obtain ⟨last, found, target⟩ := Option.map_eq_some_iff.mp resting.last
  have derives : ∃ transition, recoveryTransition site client operations = .ok transition := by
    unfold recoveryTransition
    cases search : operations.find? fun operation => operation.target == manifestPath site client with
    | none =>
      have missing := find?_eq_none.mp search last (mem_of_getLast? found)
      rw [target] at missing
      simp at missing
    | some operation => exact ⟨_, rfl⟩
  obtain ⟨transition, derived⟩ := derives
  have viewed : Triple total (fun state => state = second)
      (.check fun _ => recoveryTransition site client operations : Action RecoveryTransition)
      (fun value state => state = second ∧ value = transition) (Stopped site client operations second) :=
    (check_able stops fun _ _ _ => ⟨transition, derived⟩).ensuring (fun _ _ both => ⟨both.1, Except.ok.inj (both.2.symm.trans derived)⟩)
  apply Triple.bind viewed
  intro value
  refine Triple.of_each fun third holds => ?_
  obtain ⟨rfl, rfl⟩ := holds
  apply Triple.bind (Triple.ensure_keep stops fun must _ _ => (able must).2.2 value derived).forget
  intro _
  exact (recoverOperations_triple resting (fun must => (able must).2.1) permits).ensuring (fun _ _ both => ⟨both.1, accepted, both.2⟩)

end
end Workctx.Installs
