import Workctx.Domain.Checks
import Workctx.Installs.Forward

/-! `AtomicAdapterTransaction.apply`, stopped anywhere. -/

namespace Workctx.Installs
open Workctx.Durable List

section
variable {site : Site} {client : AgentClient} {mutations : List FileMutation} {start : ProjectState}

theorem rollback_triple (applied : Nat) (reservations : List (Nat × AdapterFile)) :
    Triple False (Under client (operationsOf mutations) start fun state => Resting site client (operationsOf mutations) state ∧
        (Quiet site client (operationsOf mutations) state ∨
          ∀ round ∈ (((mutations.zip (operationsOf mutations)).take applied).reverse).head?,
            round.2.target = manifestPath site client))
      (rollback client mutations applied reservations)
      (fun _ => Under client (operationsOf mutations) start (Resting site client (operationsOf mutations)))
      (Under client (operationsOf mutations) start (Resting site client (operationsOf mutations))) := by
  have inside : ∀ round ∈ ((mutations.zip (operationsOf mutations)).take applied).reverse,
      round.2 ∈ operationsOf mutations ∧ round.2 = round.1.toOperation round.2.index :=
    fun round member => mem_zip_operationsOf (mem_of_mem_take (mem_reverse.mp member))
  refine Triple.handle (Triple.bind (rollbackTargets_triple reservations _ inside) fun restored => ?_) (fun _ => id)
    fun _ => Triple.ret fun _ => id
  split
  · exact Triple.bind (heartbeat_keep fun _ => id) fun _ => Triple.observe fun _ => id
  · exact Triple.ret fun _ => id

theorem abandon_triple {post : Unit → ProjectState → Prop} (applied : Nat) (reservations : List (Nat × AdapterFile))
    (error : InstallError) :
    Triple False (Under client (operationsOf mutations) start fun state => Resting site client (operationsOf mutations) state ∧
        ∀ operation ∈ (operationsOf mutations).drop applied, operation.Fresh state)
      (abandon client mutations applied reservations error) post (Stopped site client (operationsOf mutations) start) := by
  unfold abandon
  have rolled := @rollback_triple site client mutations start applied reservations
  apply Triple.bind (rolled.weaken (fun _ holds => holds.weaken fun _ both =>
    ⟨both.1, rounds_ready both.1.toArranged applied both.2⟩) (fun _ _ => id) fun _ => Under.stopped)
  intro restored
  apply Triple.bind (ensure_pass fun _ => Under.stopped)
  intro _
  apply Triple.bind (resolveAndCleanup_triple rfl [])
  intro _
  exact Triple.raise fun _ retired => ⟨retired.stopped, id⟩

/-! Forward. -/

section
variable (planTargets : List (String × Option AdapterFile)) (authority : ProjectState → Except InstallError Unit)

theorem beforeMutation_keep {pre : ProjectState → Prop} (mutation : FileMutation) (index : Nat) :
    Triple False pre (beforeMutation mutations planTargets (.check authority) mutation index) (fun _ => pre) pre := by
  unfold beforeMutation
  apply Triple.bind (heartbeat_keep fun _ => id)
  intro _
  have rest : Triple False pre
      ((Program.check authority).bind fun _ => .check fun state => demand (state.targets mutation.path == mutation.expected)
        (.recoveryConflict ("Precondition changed before mutation: " ++ mutation.path)) : Action Unit)
      (fun _ => pre) pre :=
    Triple.bind (check_pass fun _ => id) fun _ => check_pass fun _ => id
  dsimp only
  split
  · exact Triple.bind (check_pass fun _ => id) fun _ => rest
  · exact rest

/-- The induction is on the mutations to come; those done are all in their postimages. -/
theorem mutateTargets_triple (rounds : List (FileMutation × Operation)) (done : List Operation)
    (split : operationsOf mutations = done ++ rounds.map (·.2)) (reservations : List (Nat × AdapterFile)) :
    Triple False (Under client (operationsOf mutations) start (Advancing site client done (rounds.map (·.2))))
      (mutateTargets site client mutations planTargets (.check authority) rounds reservations)
      (fun _ => Under client (operationsOf mutations) start (Resting site client (operationsOf mutations)))
      (Stopped site client (operationsOf mutations) start) := by
  induction rounds generalizing done reservations with
  | nil =>
    have resting : ∀ state, Under client (operationsOf mutations) start (Advancing site client done []) state →
        Under client (operationsOf mutations) start (Resting site client (operationsOf mutations)) state :=
      fun _ holds => holds.weaken fun _ advancing => split ▸ advancing.resting
    have whole : (operationsOf mutations).drop mutations.length = [] := by
      rw [← length_operationsOf mutations]
      exact drop_length
    refine Triple.attempt (Triple.bind (heartbeat_keep fun _ => id) fun _ => Triple.bind (check_pass fun _ => id) fun _ =>
      check_pass fun _ => id) (fun _ holds => (resting _ holds).stopped) (fun _ => Triple.ret resting) fun error => ?_
    refine (abandon_triple _ _ error).strengthen (fun _ holds => (resting _ holds).weaken fun _ rests => ⟨rests, ?_⟩)
    rw [whole]
    exact forall_mem_nil _
  | cons round rest ih =>
    obtain ⟨mutation, operation⟩ := round
    have split' : operationsOf mutations = done ++ operation :: rest.map (·.2) := split
    have index := index_operationsOf split'
    have resting : ∀ state, Under client (operationsOf mutations) start
        (Working site client done operation (rest.map (·.2))) state →
          Under client (operationsOf mutations) start (Resting site client (operationsOf mutations)) state :=
      fun _ holds => holds.weaken fun _ working => split' ▸ working.resting
    have abandoned : ∀ known error, Triple False
        (Under client (operationsOf mutations) start (Working site client done operation (rest.map (·.2))))
        (abandon client mutations (operation.index + 1) known error)
        (fun _ => Under client (operationsOf mutations) start (Resting site client (operationsOf mutations)))
        (Stopped site client (operationsOf mutations) start) := by
      intro known error
      refine (abandon_triple _ known error).strengthen (fun state holds => holds.weaken fun _ working =>
        ⟨split' ▸ working.resting, fun other later => ?_⟩)
      apply working.todo
      rw [split', index, ← singleton_append, ← append_assoc] at later
      rwa [drop_left' (by simp)] at later
    refine Triple.attempt (beforeMutation_keep planTargets authority mutation operation.index)
      (fun _ holds => (holds.weaken fun _ advancing => split' ▸ advancing.resting).stopped)
      (fun _ => mutateTarget_triple split' (fun _ holds => (resting _ holds).stopped) reservations
        (fun known => ih (done ++ [operation]) (by rw [split']; simp) known) abandoned) fun error => ?_
    refine (abandon_triple _ _ error).strengthen (fun state holds => holds.weaken fun _ advancing =>
      ⟨split' ▸ advancing.resting, fun other later => ?_⟩)
    apply advancing.todo
    rw [split', index] at later
    rwa [drop_left' rfl] at later

end
end

/-! Staging. -/

section
variable {site : Site} {client : AgentClient} {mutations : List FileMutation} {operations : List Operation} {start : ProjectState}

theorem accepts_ok {planTargets : List (String × Option AdapterFile)}
    (accepted : accepts site client mutations planTargets = .ok ()) :
    (mutations.map fun mutation => site.collisionKey mutation.path).Nodup ∧
      (mutations.getLast?.map (·.path)) = some (manifestPath site client) ∧
        ∀ mutation ∈ mutations, mutation.expected.isSome || mutation.desired.isSome := by
  obtain ⟨_, distinct, accepted⟩ := Domain.bind_ok.mp accepted
  obtain ⟨_, ends, accepted⟩ := Domain.bind_ok.mp accepted
  obtain ⟨_, _, accepted⟩ := Domain.bind_ok.mp accepted
  obtain ⟨_, _, present⟩ := Domain.bind_ok.mp accepted
  exact ⟨of_decide_eq_true (demand_ok distinct), beq_iff_eq.mp (demand_ok ends), all_eq_true.mp (demand_ok present)⟩

theorem shaped_toOperation {mutation : FileMutation} (present : (mutation.expected.isSome || mutation.desired.isSome) = true)
    (index : Nat) : (mutation.toOperation index).Shaped := by
  unfold Operation.Shaped FileMutation.toOperation FileMutation.operation
  cases expected : mutation.expected with
  | none =>
    rw [expected] at present
    exact ⟨rfl, present⟩
  | some file =>
    cases desired : mutation.desired with
    | none => exact ⟨rfl, rfl⟩
    | some hash => exact ⟨rfl, rfl⟩

theorem accepts_arranged {planTargets : List (String × Option AdapterFile)}
    (accepted : accepts site client mutations planTargets = .ok ()) : Arranged site client (operationsOf mutations) := by
  obtain ⟨distinct, ends, present⟩ := accepts_ok accepted
  have mapped : (mutations.map fun mutation => site.collisionKey mutation.path) =
      (mutations.map (·.path)).map site.collisionKey := by rw [map_map]; rfl
  rw [mapped] at distinct
  refine ⟨⟨?_, ?_⟩, fun operation member => ?_, ?_⟩
  · rw [targets_operationsOf]
    exact distinct.of_map _
  · rw [indices_operationsOf]
    exact nodup_range
  · obtain ⟨entry, inside, rfl⟩ := mem_operationsOf member
    exact shaped_toOperation (present _ (fst_mem_of_mem_zipIdx inside)) entry.2
  · rw [← getLast?_map, targets_operationsOf, getLast?_map]
    exact ends

def Copied (entry : FileMutation × Nat) (state : ProjectState) : Prop :=
  (entry.1.desired.isSome = true → state.evidenceHash .staged entry.2 = entry.1.desired) ∧
    (entry.1.expected.isSome = true → state.evidenceHash .verified entry.2 = entry.1.expected.map (·.contentHash))

/-- The targets are untouched, nothing is removed, and the copies of some mutations are made. -/
structure Staging (operations : List Operation) (staged : List (FileMutation × Nat)) (state : ProjectState) : Prop
    extends Settled operations .expected state where
  removed : ∀ index, state.evidence .removed index = none
  copied : ∀ entry ∈ staged, Copied entry state

theorem Under.settled {state : ProjectState} (holds : Under client operations start (Settled operations .expected) state) :
    Stopped site client operations start state := ⟨.before holds.phase holds.retired, holds.within⟩

theorem Under.staging {staged : List (FileMutation × Nat)} {state : ProjectState}
    (holds : Under client operations start (Staging operations staged) state) : Stopped site client operations start state :=
  (holds.weaken fun _ staging => staging.toSettled).settled

theorem writeEvidence_triple {held after : ProjectState → Prop} (kind : EvidenceKind) (index : Nat) (hash : String)
    (settled : ∀ state, held state → Settled operations .expected state)
    (writes : ∀ state, held state →
      after { state.setEvidence kind index (some ⟨state.fresh, hash⟩) with fresh := state.fresh + 1 }) :
    Triple False (Under client operations start held) (writeEvidence kind index hash)
      (fun _ => Under client operations start after) (Stopped site client operations start) := by
  apply Triple.perform
  intro state holds
  have before := settled state holds.phase
  have whole : Under client operations start (Settled operations .expected)
      { state.setEvidence kind index (some ⟨state.fresh, hash⟩) with fresh := state.fresh + 1 } :=
    ⟨before.change rfl rfl, holds.within.evidence rfl rfl rfl rfl, holds.retired⟩
  refine ⟨⟨writes state holds.phase, whole.within, whole.retired⟩, (holds.weaken settled).settled, whole.settled, fun part => ?_⟩
  have partly : Under client operations start (Settled operations .expected) (state.setEvidence kind index (some part)) :=
    ⟨before.change rfl rfl, holds.within.evidence rfl rfl rfl rfl, holds.retired⟩
  exact partly.settled

theorem stageMutation_triple {before : List (FileMutation × Nat)} {item : FileMutation × Nat}
    (new : ∀ entry ∈ before, entry.2 ≠ item.2) :
    Triple False (Under client operations start (Staging operations before)) (stageMutation item.1 item.2)
      (fun _ => Under client operations start (Staging operations (before ++ [item]))) (Stopped site client operations start) := by
  -- A write for this mutation leaves the removed files and the copies of the others as they were.
  have elsewhere : ∀ (kind : EvidenceKind), kind ≠ .removed → ∀ (state : ProjectState) (file : Option AdapterFile),
      Staging operations before state → (∀ index, (state.setEvidence kind item.2 file).evidence .removed index = none) ∧
        ∀ entry ∈ before, Copied entry (state.setEvidence kind item.2 file) := by
    intro kind kept state file staging
    refine ⟨fun index => ?_, fun entry member => ?_⟩
    · rw [state.setEvidence_kind kept.symm]
      exact staging.removed index
    · have copied := staging.copied entry member
      unfold Copied ProjectState.evidenceHash at copied ⊢
      rwa [state.setEvidence_other (.inr (new entry member)), state.setEvidence_other (.inr (new entry member))]
  let staged (state : ProjectState) : Prop :=
    item.1.desired.isSome = true → state.evidenceHash .staged item.2 = item.1.desired
  have join : ∀ state, Staging operations before state → Copied item state → Staging operations (before ++ [item]) state := by
    intro state staging copied
    refine ⟨staging.toSettled, staging.removed, fun entry member => ?_⟩
    rcases mem_append.mp member with earlier | same
    · exact staging.copied entry earlier
    · rwa [mem_singleton.mp same]
  have verify : ∀ copying : Action Unit, (item.1.expected = none → copying = .ret ()) →
      (∀ file, item.1.expected = some file → copying = (writeEvidence .verified item.2 file.contentHash).bind fun _ =>
        .check fun state => demand (state.evidenceHash .verified item.2 == some file.contentHash)
          (.recoveryRequired "Staged preimage hash mismatch")) →
      Triple False (Under client operations start fun state => Staging operations before state ∧ staged state) copying
        (fun _ => Under client operations start (Staging operations (before ++ [item]))) (Stopped site client operations start) := by
    intro copying absent present
    cases preimage : item.1.expected with
    | none =>
      rw [absent preimage]
      refine Triple.ret fun state holds => holds.weaken fun _ both => join _ both.1 ⟨both.2, fun some_pre => ?_⟩
      rw [preimage] at some_pre
      cases some_pre
    | some file =>
      rw [present file preimage]
      refine Triple.bind (@writeEvidence_triple _ _ _ _ _ (Staging operations (before ++ [item])) .verified item.2 file.contentHash
        (fun _ both => both.1.toSettled) fun state both => ?_) fun _ => check_pass fun _ holds => holds.staging
      obtain ⟨removed, copied⟩ := elsewhere .verified (by decide) state (some ⟨state.fresh, file.contentHash⟩) both.1
      have own := state.setEvidence_self .verified item.2 (some ⟨state.fresh, file.contentHash⟩)
      have other := state.setEvidence_kind (by decide : EvidenceKind.staged ≠ .verified) item.2 item.2
        (some ⟨state.fresh, file.contentHash⟩)
      refine join _ ⟨both.1.toSettled.change rfl rfl, removed, copied⟩ ⟨fun present => ?_, fun _ => ?_⟩
      · rw [ProjectState.evidenceHash, other]
        exact both.2 present
      · rw [ProjectState.evidenceHash, own, preimage]
        rfl
  unfold stageMutation
  dsimp only
  cases postimage : item.1.desired with
  | none =>
    refine Triple.strengthen (verify _ (fun absent => by rw [absent]; rfl) fun file present => by rw [present]; rfl)
      (fun _ holds => holds.weaken fun _ staging => ⟨staging, fun present => ?_⟩)
    rw [postimage] at present
    cases present
  | some hash =>
    refine Triple.bind (@writeEvidence_triple _ _ _ _ _ (fun state => Staging operations before state ∧ staged state) .staged
      item.2 hash (fun _ staging => staging.toSettled) fun state staging => ?_) fun _ =>
        Triple.bind (check_pass fun _ holds => (holds.weaken fun _ both => both.1).staging) fun _ =>
          verify _ (fun absent => by rw [absent]) fun file present => by rw [present]; rfl
    obtain ⟨removed, copied⟩ := elsewhere .staged (by decide) state (some ⟨state.fresh, hash⟩) staging
    refine ⟨⟨staging.toSettled.change rfl rfl, removed, copied⟩, fun _ => ?_⟩
    have own := state.setEvidence_self .staged item.2 (some ⟨state.fresh, hash⟩)
    rw [ProjectState.evidenceHash, own, postimage]
    rfl

theorem zipIdx_new {before after : List (FileMutation × Nat)} {item : FileMutation × Nat}
    (split : mutations.zipIdx = before ++ item :: after) : ∀ entry ∈ before, entry.2 ≠ item.2 := by
  have distinct : (mutations.zipIdx.map (·.2)).Nodup := by
    rw [zipIdx_map_snd]
    exact nodup_range'
  rw [split, map_append, map_cons, nodup_append] at distinct
  exact fun entry member => distinct.2.2 _ (mem_map_of_mem member) _ mem_cons_self

theorem writeIntent_triple (arranged : Arranged site client (operationsOf mutations)) :
    Triple False (Under client (operationsOf mutations) start (Staging (operationsOf mutations) mutations.zipIdx))
      (writeIntent client (operationsOf mutations))
      (fun _ => Under client (operationsOf mutations) start (Advancing site client [] (operationsOf mutations)))
      (Stopped site client (operationsOf mutations) start) := by
  apply Triple.perform
  intro state holds
  have staging := holds.phase
  have fresh : ∀ operation ∈ operationsOf mutations, operation.Fresh state := by
    intro operation member
    have target := allMatch_iff.mp staging.reached operation member
    obtain ⟨entry, inside, rfl⟩ := mem_operationsOf member
    obtain ⟨staged, verified⟩ := staging.copied entry inside
    exact ⟨target, staged, fun present => verified (by simpa [FileMutation.toOperation] using present), staging.removed _⟩
  have advancing : Under client (operationsOf mutations) start (Advancing site client [] (operationsOf mutations))
      { state with intent := .written client (operationsOf mutations) } :=
    ⟨⟨arranged, rfl, forall_mem_nil _,
      fun operation member => (fresh operation member).same ⟨rfl, fun _ => rfl⟩⟩, holds.within.evidence rfl rfl rfl rfl, holds.retired⟩
  exact ⟨advancing, holds.staging, (advancing.weaken fun _ => Advancing.resting).stopped,
    fun _ => ⟨.torn rfl staging.reached holds.retired, holds.within.evidence rfl rfl rfl rfl⟩⟩

/-- Every stop of `apply` leaves one of the known states, and its return the postimages. -/
theorem apply_triple (targetSnapshots : List (String × Option AdapterFile)) (authority : ProjectState → Except InstallError Unit)
    (nonempty : mutations ≠ []) :
    Triple False (Under client (operationsOf mutations) start (Settled (operationsOf mutations) .expected))
      (apply site client mutations targetSnapshots (.check authority))
      (fun _ => Retired client (operationsOf mutations) start .postimage) (Stopped site client (operationsOf mutations) start) := by
  have stops : ∀ state, Under client (operationsOf mutations) start (Settled (operationsOf mutations) .expected) state →
      Stopped site client (operationsOf mutations) start state := fun _ => Under.settled
  unfold apply
  rw [if_neg (by simpa using nonempty)]
  dsimp only
  generalize (if targetSnapshots.isEmpty then mutations.map fun mutation => (mutation.path, mutation.expected)
    else targetSnapshots) = planTargets
  apply Triple.bind (check_known stops)
  intro _
  refine Triple.of_each fun first holds => ?_
  have arranged := accepts_arranged holds.2
  have here : ∀ state, state = first → Under client (operationsOf mutations) start (Settled (operationsOf mutations) .expected) state :=
    fun _ same => same ▸ holds.1
  apply Triple.bind ((check_pass stops).strengthen here)
  intro _
  have made : Triple False (Under client (operationsOf mutations) start (Settled (operationsOf mutations) .expected))
      makeDirectories (fun _ => Under client (operationsOf mutations) start (Staging (operationsOf mutations) []))
      (Stopped site client (operationsOf mutations) start) := by
    apply Triple.perform
    intro state settled
    have cleared : Under client (operationsOf mutations) start (Staging (operationsOf mutations) [])
        { state with evidence := fun _ _ => none } :=
      ⟨⟨settled.phase.change rfl rfl, fun _ => rfl, forall_mem_nil _⟩,
        settled.within.evidence rfl rfl rfl rfl, settled.retired⟩
    exact ⟨cleared, settled.settled, cleared.staging, fun _ => settled.settled⟩
  apply Triple.bind made
  intro _
  let inv (before _ : List (FileMutation × Nat)) : ProjectState → Prop :=
    Under client (operationsOf mutations) start (Staging (operationsOf mutations) before)
  have staged : Triple False (inv [] mutations.zipIdx)
      (.forEach (fun entry : FileMutation × Nat => stageMutation entry.1 entry.2) mutations.zipIdx)
      (fun _ => inv mutations.zipIdx []) (Stopped site client (operationsOf mutations) start) :=
    Triple.forEach _ fun before item after split => stageMutation_triple (zipIdx_new split)
  apply Triple.bind staged
  intro _
  apply Triple.bind (heartbeat_keep fun _ => Under.staging)
  intro _
  apply Triple.bind (writeIntent_triple arranged)
  intro _
  have seconds : (mutations.zip (operationsOf mutations)).map (·.2) = operationsOf mutations := map_snd_zip (by simp)
  have mutated := @mutateTargets_triple site client _ start planTargets authority
    (mutations.zip (operationsOf mutations)) [] (by rw [seconds]; rfl) []
  rw [seconds] at mutated
  apply Triple.bind mutated
  intro _
  apply Triple.bind (resolveAndCleanup_triple rfl planTargets)
  intro _
  exact Triple.ret fun _ => id

end
end Workctx.Installs
