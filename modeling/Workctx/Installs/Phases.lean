import Mathlib.Data.List.Nodup
import Workctx.Durable.Triple
import Workctx.Installs.Transaction

/-! What a stopped transaction leaves of each of its operations, and of all of them together. -/

namespace Workctx.Installs
open Workctx.Durable List

namespace ProjectState
variable (state : ProjectState)

theorem setTarget_other {path other : String} (differs : other ≠ path) (file : Option AdapterFile) :
    (state.setTarget path file).targets other = state.targets other := Function.update_of_ne differs ..

@[simp] theorem setTarget_self (path : String) (file : Option AdapterFile) :
    (state.setTarget path file).targets path = file := Function.update_self ..

@[simp] theorem setEvidence_self (kind : EvidenceKind) (index : Nat) (file : Option AdapterFile) :
    (state.setEvidence kind index file).evidence kind index = file := by
  simp [setEvidence]

theorem setEvidence_other {kind other : EvidenceKind} {index place : Nat} (differs : other ≠ kind ∨ place ≠ index)
    (file : Option AdapterFile) : (state.setEvidence kind index file).evidence other place = state.evidence other place := by
  by_cases same : other = kind
  · subst same
    have elsewhere : place ≠ index := differs.resolve_left (· rfl)
    simp [setEvidence, elsewhere]
  · simp [setEvidence, same]

theorem setEvidence_kind {kind other : EvidenceKind} (differs : other ≠ kind) (index place : Nat) (file : Option AdapterFile) :
    (state.setEvidence kind index file).evidence other place = state.evidence other place :=
  state.setEvidence_other (.inl differs) file

@[simp] theorem setEvidence_targets (kind : EvidenceKind) (index : Nat) (file : Option AdapterFile) :
    (state.setEvidence kind index file).targets = state.targets := rfl

@[simp] theorem setTarget_evidence (path : String) (file : Option AdapterFile) :
    (state.setTarget path file).evidence = state.evidence := rfl

end ProjectState

namespace Operation

/-- The states and the kind of an operation belong together. -/
def Shaped (operation : Operation) : Prop :=
  match operation.operation with
  | .create => operation.expected = none ∧ operation.postimage.isSome = true
  | .replace => operation.expected.isSome = true ∧ operation.postimage.isSome = true
  | .delete => operation.expected.isSome = true ∧ operation.postimage = none

/-- The files of an operation: its target and its evidence. -/
structure Same (operation : Operation) (before after : ProjectState) : Prop where
  target : after.targets operation.target = before.targets operation.target
  evidence : ∀ kind, after.evidence kind operation.index = before.evidence kind operation.index

/-- Nothing of the operation has happened, and its copies are made. -/
structure Fresh (operation : Operation) (state : ProjectState) : Prop where
  target : state.hashAt operation.target = operation.expected
  staged : operation.postimage.isSome = true → state.evidenceHash .staged operation.index = operation.postimage
  verified : operation.expected.isSome = true → state.evidenceHash .verified operation.index = operation.expected
  removed : state.evidence .removed operation.index = none

structure Done (operation : Operation) (state : ProjectState) : Prop where
  target : state.hashAt operation.target = operation.postimage
  staged : operation.postimage.isSome = true → state.evidence .staged operation.index = none
  verified : operation.expected.isSome = true → state.evidenceHash .verified operation.index = operation.expected
  removed : operation.operation = .delete → state.evidenceHash .removed operation.index = operation.expected

/-- An empty file is reserved in place of the bytes that are to come. -/
def Reserving (site : Site) (operation : Operation) (state : ProjectState) : Prop :=
  (operation.operation = .create ∧ state.hashAt operation.target = some site.emptyHash ∧
    state.evidenceHash .staged operation.index = operation.postimage) ∨
  (operation.operation = .delete ∧ state.hashAt operation.target = operation.expected ∧
    state.evidenceHash .verified operation.index = operation.expected ∧
    state.evidenceHash .removed operation.index = some site.emptyHash)

def Recorded (operation : Operation) (state : ProjectState) : Prop :=
  state.hashAt operation.target = operation.expected ∨ state.hashAt operation.target = operation.postimage

/-- An evidence file is the recorded one, or it has been used. -/
def Sound (operation : Operation) (state : ProjectState) (artifact : EvidenceKind × Option String) : Prop :=
  (state.evidence artifact.1 operation.index).isSome = true ∧ state.evidenceHash artifact.1 operation.index = artifact.2 ∨
    state.evidence artifact.1 operation.index = none ∧ (state.hashAt operation.target = operation.expected ∨
      artifact.1 = .staged ∧ state.hashAt operation.target = operation.postimage)

/-- A recovery can go on from what there is of the operation. -/
structure Steady (operation : Operation) (state : ProjectState) : Prop where
  recorded : operation.Recorded state
  evidence : ∀ artifact ∈ operation.artifacts, operation.Sound state artifact

section
variable {site : Site} {operation : Operation} {before after state : ProjectState}

theorem Same.hashAt (same : operation.Same before after) : after.hashAt operation.target = before.hashAt operation.target := by
  rw [ProjectState.hashAt, same.target, ProjectState.hashAt]

theorem Same.evidenceHash (same : operation.Same before after) (kind : EvidenceKind) :
    after.evidenceHash kind operation.index = before.evidenceHash kind operation.index := by
  rw [ProjectState.evidenceHash, same.evidence, ProjectState.evidenceHash]

theorem Fresh.same (fresh : operation.Fresh before) (same : operation.Same before after) : operation.Fresh after := by
  constructor
  · rw [same.hashAt]; exact fresh.target
  · rw [same.evidenceHash]; exact fresh.staged
  · rw [same.evidenceHash]; exact fresh.verified
  · rw [same.evidence]; exact fresh.removed

theorem Done.same (done : operation.Done before) (same : operation.Same before after) : operation.Done after := by
  constructor
  · rw [same.hashAt]; exact done.target
  · rw [same.evidence]; exact done.staged
  · rw [same.evidenceHash]; exact done.verified
  · rw [same.evidenceHash]; exact done.removed

theorem Reserving.same (reserving : operation.Reserving site before) (same : operation.Same before after) :
    operation.Reserving site after := by
  unfold Reserving
  rw [same.hashAt, same.evidenceHash, same.evidenceHash, same.evidenceHash]
  exact reserving

theorem Recorded.same (recorded : operation.Recorded before) (same : operation.Same before after) : operation.Recorded after := by
  unfold Recorded
  rw [same.hashAt]
  exact recorded

variable {artifact : EvidenceKind × Option String}

theorem Sound.same (sound : operation.Sound before artifact)
    (same : operation.Same before after) : operation.Sound after artifact := by
  unfold Sound
  rw [same.hashAt, same.evidenceHash, same.evidence]
  exact sound

theorem Steady.same (steady : operation.Steady before) (same : operation.Same before after) : operation.Steady after :=
  ⟨steady.recorded.same same, fun artifact member => (steady.evidence artifact member).same same⟩

theorem mem_artifacts : artifact ∈ operation.artifacts ↔
    (artifact = (.staged, operation.postimage) ∧ operation.postimage.isSome = true) ∨
      (artifact = (.verified, operation.expected) ∧ operation.expected.isSome = true) ∨
        (artifact = (.removed, operation.expected) ∧ operation.operation = .delete) := by
  unfold artifacts
  by_cases post : operation.postimage.isSome <;> by_cases pre : operation.expected.isSome <;>
    by_cases removal : operation.operation = .delete <;> simp [post, pre, removal]

theorem Sound.of_hash (present : artifact.2.isSome = true)
    (hash : state.evidenceHash artifact.1 operation.index = artifact.2) : operation.Sound state artifact := by
  left
  refine ⟨?_, hash⟩
  rw [← hash, ProjectState.evidenceHash, Option.isSome_map] at present
  exact present

theorem Fresh.steady (fresh : operation.Fresh state) : operation.Steady state := by
  refine ⟨.inl fresh.target, fun artifact member => ?_⟩
  rcases mem_artifacts.mp member with ⟨rfl, present⟩ | ⟨rfl, present⟩ | ⟨rfl, removal⟩
  · exact .of_hash present (fresh.staged present)
  · exact .of_hash present (fresh.verified present)
  · exact .inr ⟨fresh.removed, .inl fresh.target⟩

theorem Shaped.delete (shaped : operation.Shaped) (removal : operation.operation = .delete) :
    operation.expected.isSome = true ∧ operation.postimage = none := by
  unfold Shaped at shaped
  rwa [removal] at shaped

theorem Shaped.create (shaped : operation.Shaped) (creation : operation.operation = .create) :
    operation.expected = none ∧ operation.postimage.isSome = true := by
  unfold Shaped at shaped
  rwa [creation] at shaped

theorem Shaped.of_absent (shaped : operation.Shaped) (absent : operation.expected = none) : operation.operation = .create := by
  unfold Shaped at shaped
  cases kind : operation.operation with
  | create => rfl
  | replace => rw [kind, absent] at shaped; cases shaped.1
  | delete => rw [kind, absent] at shaped; cases shaped.1

theorem Done.steady (done : operation.Done state) (shaped : operation.Shaped) : operation.Steady state := by
  refine ⟨.inr done.target, fun artifact member => ?_⟩
  rcases mem_artifacts.mp member with ⟨rfl, present⟩ | ⟨rfl, present⟩ | ⟨rfl, removal⟩
  · exact .inr ⟨done.staged present, .inr ⟨rfl, done.target⟩⟩
  · exact .of_hash present (done.verified present)
  · exact .of_hash (shaped.delete removal).1 (done.removed removal)

def Unspoiled (operation : Operation) (state : ProjectState) : Prop :=
  ∀ artifact ∈ operation.artifacts, state.evidence artifact.1 operation.index = none ∨
    state.evidenceHash artifact.1 operation.index = artifact.2

theorem Steady.unspoiled (steady : operation.Steady state) : operation.Unspoiled state := by
  intro artifact member
  rcases steady.evidence artifact member with ⟨_, hash⟩ | ⟨absent, _⟩
  · exact .inr hash
  · exact .inl absent

theorem Shaped.present (shaped : operation.Shaped) (member : artifact ∈ operation.artifacts) :
    artifact.2.isSome = true := by
  rcases mem_artifacts.mp member with ⟨rfl, present⟩ | ⟨rfl, present⟩ | ⟨rfl, removal⟩
  · exact present
  · exact present
  · exact (shaped.delete removal).1

theorem Unspoiled.steady (unspoiled : operation.Unspoiled state) (shaped : operation.Shaped)
    (target : state.hashAt operation.target = operation.expected) : operation.Steady state := by
  refine ⟨.inl target, fun artifact member => ?_⟩
  rcases unspoiled artifact member with absent | hash
  · exact .inr ⟨absent, .inl target⟩
  · exact .of_hash (shaped.present member) hash

theorem Reserving.unspoiled (reserving : operation.Reserving site state) (shaped : operation.Shaped)
    (created : operation.expected = none) : operation.Unspoiled state := by
  have creation := shaped.of_absent created
  obtain ⟨_, _, staged⟩ | ⟨removal, _⟩ := reserving
  · intro artifact member
    rcases mem_artifacts.mp member with ⟨rfl, _⟩ | ⟨rfl, present⟩ | ⟨rfl, removal⟩
    · exact .inr staged
    · rw [created] at present
      cases present
    · rw [creation] at removal
      cases removal
  · rw [creation] at removal
    cases removal

theorem Unspoiled.less (unspoiled : operation.Unspoiled before)
    (less : ∀ kind, after.evidence kind operation.index = before.evidence kind operation.index ∨
      after.evidence kind operation.index = none) : operation.Unspoiled after := by
  intro artifact member
  rcases less artifact.1 with same | gone
  · rw [same, ProjectState.evidenceHash, same]
    exact unspoiled artifact member
  · exact .inl gone

theorem internalFilesValid_iff : internalFilesValid state operation = true ↔
    ∀ artifact ∈ operation.artifacts, operation.Sound state artifact := by
  unfold internalFilesValid
  rw [all_eq_true]
  refine forall₂_congr fun artifact member => ?_
  unfold Sound ProjectState.evidenceHash
  cases present : state.evidence artifact.1 operation.index with
  | none => simp
  | some file => simp

end
end Operation

/-- The operations concern different targets and different evidence files. -/
structure Separate (operations : List Operation) : Prop where
  targets : (operations.map (·.target)).Nodup
  indices : (operations.map (·.index)).Nodup

/-- The operations of an intent, with that of the manifest at the end. -/
structure Arranged (site : Site) (client : AgentClient) (operations : List Operation) : Prop extends Separate operations where
  shaped : ∀ operation ∈ operations, operation.Shaped
  last : operations.getLast?.map (·.target) = some (manifestPath site client)

/-- A transaction that was stopped behind its intent and can be told to either side. -/
structure Resting (site : Site) (client : AgentClient) (operations : List Operation) (state : ProjectState) : Prop
    extends Arranged site client operations where
  intent : state.intent = .written client operations
  each : ∀ operation ∈ operations, operation.Steady state ∨ operation.Reserving site state
  committed : ∀ operation ∈ operations, operation.target = manifestPath site client →
    state.hashAt operation.target = operation.postimage → operation.postimage ≠ operation.expected →
      allMatch operations .postimage state = true

/-- A transaction that goes forward: what is done, and what is to do. -/
structure Advancing (site : Site) (client : AgentClient) (done todo : List Operation) (state : ProjectState) : Prop
    extends Arranged site client (done ++ todo) where
  intent : state.intent = .written client (done ++ todo)
  done : ∀ operation ∈ done, operation.Done state
  todo : ∀ operation ∈ todo, operation.Fresh state

structure Working (site : Site) (client : AgentClient) (done : List Operation) (operation : Operation) (todo : List Operation)
    (state : ProjectState) : Prop extends Arranged site client (done ++ operation :: todo) where
  intent : state.intent = .written client (done ++ operation :: todo)
  done : ∀ other ∈ done, other.Done state
  current : operation.Fresh state ∨ operation.Reserving site state ∨ operation.Done state
  todo : ∀ other ∈ todo, other.Fresh state

section
variable {site : Site} {client : AgentClient} {operations done todo : List Operation} {operation other : Operation}
  {before after state : ProjectState}

theorem Separate.differs (separate : Separate operations) (member : operation ∈ operations) (inside : other ∈ operations)
    (different : other ≠ operation) : other.target ≠ operation.target ∧ other.index ≠ operation.index :=
  ⟨fun same => different (inj_on_of_nodup_map separate.targets inside member same),
    fun same => different (inj_on_of_nodup_map separate.indices inside member same)⟩

/-- Nothing but the files of one operation has changed. -/
structure Elsewhere (operation : Operation) (before after : ProjectState) : Prop where
  intent : after.intent = before.intent
  targets : ∀ path, path ≠ operation.target → after.targets path = before.targets path
  evidence : ∀ kind index, index ≠ operation.index → after.evidence kind index = before.evidence kind index

theorem Elsewhere.same (elsewhere : Elsewhere operation before after) (separate : Separate operations)
    (member : operation ∈ operations) (inside : other ∈ operations) (different : other ≠ operation) :
    other.Same before after := by
  obtain ⟨target, index⟩ := separate.differs member inside different
  exact ⟨elsewhere.targets _ target, fun kind => elsewhere.evidence kind _ index⟩

theorem Elsewhere.refl (operation : Operation) (state : ProjectState) : Elsewhere operation state state :=
  ⟨rfl, fun _ _ => rfl, fun _ _ _ => rfl⟩

theorem Elsewhere.trans {last : ProjectState} (one : Elsewhere operation before after) (two : Elsewhere operation after last) :
    Elsewhere operation before last :=
  ⟨two.intent.trans one.intent, fun path differs => (two.targets path differs).trans (one.targets path differs),
    fun kind index differs => (two.evidence kind index differs).trans (one.evidence kind index differs)⟩

theorem setTarget_elsewhere (file : Option AdapterFile) :
    Elsewhere operation before (before.setTarget operation.target file) :=
  ⟨rfl, fun _ differs => before.setTarget_other differs file, fun _ _ _ => rfl⟩

theorem setEvidence_elsewhere (kind : EvidenceKind) (file : Option AdapterFile) :
    Elsewhere operation before (before.setEvidence kind operation.index file) :=
  ⟨rfl, fun _ _ => rfl, fun _ _ differs => before.setEvidence_other (.inr differs) file⟩

theorem allMatch_iff {resolved : ResolvedState} : allMatch operations resolved state = true ↔
    ∀ operation ∈ operations, state.hashAt operation.target = operation.state resolved := by
  unfold allMatch
  rw [all_eq_true]
  exact forall₂_congr fun _ _ => beq_iff_eq

theorem Arranged.final (arranged : Arranged site client operations) (member : operation ∈ operations)
    (manifest : operation.target = manifestPath site client) : operations.getLast? = some operation := by
  obtain ⟨last, found, target⟩ := Option.map_eq_some_iff.mp arranged.last
  have same := inj_on_of_nodup_map arranged.targets (mem_of_getLast? found) member (target.trans manifest.symm)
  rw [found, same]

theorem Arranged.behind (arranged : Arranged site client (done ++ operation :: todo)) (member : other ∈ done ++ operation :: todo)
    (manifest : other.target = manifestPath site client) : other = operation ∧ todo = [] ∨ other ∈ todo := by
  have final := arranged.final member manifest
  rcases eq_nil_or_concat todo with rfl | ⟨front, last, rfl⟩
  · rw [getLast?_concat] at final
    exact .inl ⟨(Option.some_inj.mp final).symm, rfl⟩
  · rw [concat_eq_append, ← cons_append, ← append_assoc, getLast?_concat] at final
    rw [concat_eq_append, Option.some_inj.mp final]
    exact .inr (by simp)

theorem Working.resting (working : Working site client done operation todo state) :
    Resting site client (done ++ operation :: todo) state := by
  refine ⟨working.toArranged, working.intent, fun other member => ?_, fun other member manifest reached moved => ?_⟩
  · have shaped := working.shaped other member
    rcases mem_append.mp member with earlier | later
    · exact .inl ((working.done other earlier).steady shaped)
    rcases mem_cons.mp later with rfl | later
    · rcases working.current with fresh | reserving | done
      · exact .inl fresh.steady
      · exact .inr reserving
      · exact .inl (done.steady shaped)
    · exact .inl (working.todo other later).steady
  · rcases working.behind member manifest with ⟨rfl, rfl⟩ | later
    · rw [allMatch_iff]
      intro each inside
      rcases mem_append.mp inside with earlier | same
      · exact (working.done each earlier).target
      · rw [mem_singleton.mp same]
        exact reached
    · exact absurd (reached.symm.trans (working.todo other later).target) moved

theorem Advancing.working (advancing : Advancing site client done (operation :: todo) state) :
    Working site client done operation todo state :=
  ⟨advancing.toArranged, advancing.intent, advancing.done, .inl (advancing.todo operation mem_cons_self),
    fun other later => advancing.todo other (mem_cons_of_mem _ later)⟩

theorem Advancing.resting (advancing : Advancing site client done todo state) : Resting site client (done ++ todo) state := by
  cases todo with
  | cons operation rest => exact advancing.working.resting
  | nil =>
    have each : ∀ operation ∈ done ++ [], operation.Done state := fun operation member =>
      advancing.done operation (by rwa [append_nil] at member)
    refine ⟨advancing.toArranged, advancing.intent, fun operation member => .inl ?_, fun _ _ _ _ _ => ?_⟩
    · exact (each operation member).steady (advancing.shaped operation member)
    · exact allMatch_iff.mpr fun operation member => (each operation member).target

theorem Working.advance (working : Working site client done operation todo state) (finished : operation.Done state) :
    Advancing site client (done ++ [operation]) todo state := by
  have split : done ++ [operation] ++ todo = done ++ operation :: todo := by simp
  refine ⟨split ▸ working.toArranged, split ▸ working.intent, fun other member => ?_, working.todo⟩
  rcases mem_append.mp member with earlier | same
  · exact working.done other earlier
  · rwa [mem_singleton.mp same]

theorem Working.step (working : Working site client done operation todo before) (elsewhere : Elsewhere operation before after)
    (current : operation.Fresh after ∨ operation.Reserving site after ∨ operation.Done after) :
    Working site client done operation todo after := by
  have here : operation ∈ done ++ operation :: todo := by simp
  have nodup := working.targets
  rw [map_append, map_cons, nodup_append, nodup_cons] at nodup
  refine ⟨working.toArranged, elsewhere.intent.trans working.intent, fun other earlier => ?_, current, fun other later => ?_⟩
  · have different : other ≠ operation := by
      rintro rfl
      exact nodup.2.2 _ (mem_map_of_mem earlier) _ mem_cons_self rfl
    exact (working.done other earlier).same
      (elsewhere.same working.toSeparate here (mem_append_left _ earlier) different)
  · have different : other ≠ operation := by
      rintro rfl
      exact nodup.2.1.1 (mem_map_of_mem later)
    exact (working.todo other later).same
      (elsewhere.same working.toSeparate here (mem_append_right _ (mem_cons_of_mem _ later)) different)

def Quiet (site : Site) (client : AgentClient) (operations : List Operation) (state : ProjectState) : Prop :=
  ∀ operation ∈ operations, operation.target = manifestPath site client →
    state.hashAt operation.target = operation.postimage → operation.postimage = operation.expected

theorem Resting.quiet (resting : Resting site client operations before) (member : operation ∈ operations)
    (order : Quiet site client operations before ∨ operation.target = manifestPath site client)
    (elsewhere : Elsewhere operation before after) (target : after.hashAt operation.target = operation.expected) :
    Quiet site client operations after := by
  intro other inside manifest reached
  by_cases same : other = operation
  · subst same
    exact reached.symm.trans target
  · have kept := elsewhere.same resting.toSeparate member inside same
    rcases order with quiet | own
    · exact quiet other inside manifest (kept.hashAt ▸ reached)
    · exact absurd (inj_on_of_nodup_map resting.targets inside member (manifest.trans own.symm)) same

theorem Resting.restore (resting : Resting site client operations before) (member : operation ∈ operations)
    (order : Quiet site client operations before ∨ operation.target = manifestPath site client)
    (elsewhere : Elsewhere operation before after) (unspoiled : operation.Unspoiled after)
    (target : after.hashAt operation.target = operation.expected) :
    Resting site client operations after ∧ Quiet site client operations after := by
  have quiet := resting.quiet member order elsewhere target
  refine ⟨⟨resting.toArranged, elsewhere.intent.trans resting.intent, fun other inside => ?_, ?_⟩, quiet⟩
  · by_cases same : other = operation
    · subst same
      exact .inl (unspoiled.steady (resting.shaped other member) target)
    · have kept := elsewhere.same resting.toSeparate member inside same
      rcases resting.each other inside with steady | reserving
      · exact .inl (steady.same kept)
      · exact .inr (reserving.same kept)
  · exact fun other inside manifest reached moved => absurd (quiet other inside manifest reached) moved

end

/-- What a call may change beside the files of its transaction. -/
structure Within (client : AgentClient) (operations : List Operation) (start state : ProjectState) : Prop where
  records : state.records = start.records
  recordChanges : state.recordChanges = start.recordChanges
  targetChanges : ∀ change ∈ state.targetChanges,
    change ∈ start.targetChanges ∨ change = ⟨client, start.pending client, .written client operations⟩
  outside : ∀ path, (∀ operation ∈ operations, operation.target ≠ path) → state.targets path = start.targets path

/-- The intent is not there, the targets are on one side. -/
structure Settled (operations : List Operation) (resolved : ResolvedState) (state : ProjectState) : Prop where
  intent : state.intent = .absent
  reached : allMatch operations resolved state = true

/-- What a stopped call of the transaction leaves. -/
inductive Left (site : Site) (client : AgentClient) (operations : List Operation) (start state : ProjectState) : Prop where
  | before (settled : Settled operations .expected state) (retired : state.retired = start.retired)
  | torn (intent : state.intent = .torn) (reached : allMatch operations .expected state = true)
      (retired : state.retired = start.retired)
  | resting (resting : Resting site client operations state) (retired : state.retired = start.retired)
  | behind (resolved : ResolvedState) (settled : Settled operations resolved state)
      (retired : state.retired = Function.update start.retired client (some operations))

section
variable {site : Site} {client : AgentClient} {operations : List Operation} {operation : Operation}
  {start state after : ProjectState}

theorem Within.refl (state : ProjectState) : Within client operations state state :=
  ⟨rfl, rfl, fun _ => .inl, fun _ _ => rfl⟩

theorem Within.evidence (within : Within client operations start state) (records : after.records = state.records)
    (recordChanges : after.recordChanges = state.recordChanges) (targetChanges : after.targetChanges = state.targetChanges)
    (targets : after.targets = state.targets) : Within client operations start after :=
  ⟨records.trans within.records, recordChanges.trans within.recordChanges, targetChanges ▸ within.targetChanges,
    fun path outside => (congrFun targets path).trans (within.outside path outside)⟩

theorem Within.target (within : Within client operations start state) (member : operation ∈ operations)
    (intent : state.intent = .written client operations) (records : after.records = state.records)
    (recordChanges : after.recordChanges = state.recordChanges)
    (targetChanges : after.targetChanges = ⟨client, state.pending client, state.intent⟩ :: state.targetChanges)
    (targets : ∀ path, path ≠ operation.target → after.targets path = state.targets path) :
    Within client operations start after := by
  refine ⟨records.trans within.records, recordChanges.trans within.recordChanges, fun change logged => ?_, fun path outside => ?_⟩
  · rw [targetChanges] at logged
    rcases mem_cons.mp logged with rfl | earlier
    · right
      rw [intent, ProjectState.pending, within.records, ProjectState.pending]
    · exact within.targetChanges change earlier
  · exact (targets path fun same => outside operation member same.symm).trans (within.outside path outside)

end
end Workctx.Installs
