import Workctx.Staging.Plan

/-! Rules for the programs both directions are built from: the fence, a write, a guarded
replacement and a guarded removal. -/

namespace Workctx.Staging
open Workctx.Durable Workctx.Text Workctx.Domain

def Disk.moved (disk : Disk) (source target : File) : Disk := (disk.set target (disk.files source)).set source none

structure Fenced (lock : String) (expectedNonce : Option String) (disk : Disk) : Prop where
  held : disk.lock = some lock
  owner : expectedNonce.all (· == lock) = true

variable {workspace : Workspace} {total : Prop} {pre cut : Disk → Prop}

theorem demand_ok {test : Bool} {failure : Failure} : demand test failure = .ok () ↔ test = true := by
  cases test <;> simp [demand]

theorem demand_bind_ok {α : Type} {test : Bool} {failure : Failure} {next : Unit → Except Failure α} {value : α} :
    (demand test failure >>= next) = .ok value ↔ test = true ∧ next () = .ok value := by
  cases test <;> simp [demand, bind, Except.bind]

theorem except_bind_ok {α β : Type} {first : Except Failure α} {next : α → Except Failure β} {value : β} :
    (first >>= next) = .ok value ↔ ∃ middle, first = .ok middle ∧ next middle = .ok value := by
  cases first <;> simp [bind, Except.bind]

variable {lock : String} {expectedNonce : Option String} {disk : Disk} {post : Disk → Prop} {source : File} {expected : String}
  {revalidate : Bool}

theorem fenced_iff {absent foreign wrong : Failure} :
    (do
      demand disk.lock.isSome absent
      demand (disk.lock == some lock) foreign
      demand (expectedNonce.all (· == lock)) wrong) = .ok () ↔ Fenced lock expectedNonce disk := by
  rw [demand_bind_ok, demand_bind_ok, demand_ok]
  constructor
  · intro facts
    exact ⟨beq_iff_eq.mp facts.2.1, facts.2.2⟩
  · intro fence
    rw [fence.held]
    exact ⟨rfl, beq_self_eq_true _, fence.owner⟩

section
variable (stopped : ∀ disk, pre disk → cut disk)
include stopped

theorem verifyLock_keep
    (fenced : total → ∀ disk, pre disk → Fenced lock expectedNonce disk) :
    Triple total pre (verifyLock lock expectedNonce) (fun _ disk => pre disk ∧ Fenced lock expectedNonce disk) cut := by
  refine (Triple.check_keep stopped ?_).ensuring ?_
  · intro must disk holds
    exact ⟨(), fenced_iff.mpr (fenced must disk holds)⟩
  · intro _ disk kept
    exact ⟨kept.1, fenced_iff.mp kept.2⟩

theorem verifyLock_triple
    (fenced : total → ∀ disk, pre disk → Fenced lock expectedNonce disk) :
    Triple total pre (verifyLock lock expectedNonce) (fun _ => pre) cut :=
  (verifyLock_keep stopped fenced).forget

theorem activateResolutionCache_triple (owner : total → expectedNonce.all (· == lock) = true) :
    Triple total pre (activateResolutionCache lock expectedNonce) (fun _ => pre) cut :=
  (Triple.ensure_keep stopped fun must _ _ => owner must).forget

theorem writeFsynced_triple {file : File} {payload : Bytes} {exclusive : Bool} (fresh : total → exclusive = true → ∀ disk, pre disk → disk.files file = none)
    (written : ∀ disk, pre disk → post (disk.set file (some payload)))
    (torn : ∀ disk, pre disk → ∀ content, cut (disk.set file (some content))) :
    Triple total pre (writeFsynced file payload exclusive) (fun _ => post) cut := by
  have write : Triple total pre (.perform (writeStep file payload) : Action Unit) (fun _ => post) cut := by
    refine Triple.perform fun disk holds => ⟨written disk holds, stopped disk holds, torn disk holds payload, ?_⟩
    intro how
    cases how with
    | written length => exact torn disk holds _
    | kept keep => exact stopped disk holds
  cases exclusive with
  | false => exact write
  | true =>
    refine Triple.bind (Triple.check_keep stopped ?_).forget
      fun _ => write
    intro must disk holds
    exact ⟨(), demand_ok.mpr (by rw [fresh must rfl disk holds]; rfl)⟩

theorem replaceFile_triple {target : File}
    (finished : ∀ disk, post disk → cut disk)
    (present : total → ∀ disk, pre disk → (disk.files source).isSome = true)
    (moved : ∀ disk, pre disk → (disk.files source).isSome = true → post (disk.moved source target)) :
    Triple total pre (replaceFile source target) (fun _ => post) cut := by
  refine Triple.bind (Triple.check_keep stopped ?_) fun _ => Triple.perform ?_
  · intro must disk holds
    exact ⟨(), demand_ok.mpr (present must disk holds)⟩
  · intro disk kept
    have done := moved disk kept.1 (demand_ok.mp kept.2)
    exact ⟨done, stopped disk kept.1, finished _ done, fun _ => stopped disk kept.1⟩

/-- A guarded replacement. A later attempt starts from whatever the earlier one left, so the
move is justified there by what the guard has seen. -/
theorem systemReplaceWithRetry_triple {seen : Disk → Prop} {target : File} {guard : Action Unit} (finished : ∀ disk, post disk → cut disk)
    (present : total → ∀ disk, seen disk → (disk.files source).isSome = true)
    (guarded : Triple total pre guard (fun _ disk => pre disk ∧ seen disk) cut)
    (again : Triple False cut guard (fun _ disk => cut disk ∧ seen disk) cut)
    (moved : ∀ disk, cut disk → seen disk → (disk.files source).isSome = true → post (disk.moved source target)) :
    Triple total pre (systemReplaceWithRetry workspace source target guard) (fun _ => post) cut := by
  refine Triple.retry workspace.positive guarded ?_ (Triple.bind again fun _ => ?_)
  · exact replaceFile_triple (fun disk holds => stopped disk holds.1) finished (fun must disk holds => present must disk holds.2)
      fun disk holds => moved disk (stopped disk holds.1) holds.2
  · exact replaceFile_triple (fun disk holds => holds.1) finished (fun never => never.elim)
      fun disk holds => moved disk holds.1 holds.2

end

/-- What a replacement attempt has seen before it moves the file. -/
structure Matches (workspace : Workspace) (source target : File) (expectedSource : String)
    (expectedTarget : Option String) (disk : Disk) : Prop where
  source : (disk.files source).map workspace.platform.contentHash = some expectedSource
  target : (disk.files target).map workspace.platform.contentHash = expectedTarget

theorem hashOptionalFile_ok {file : File} {hash : Option String} :
    hashOptionalFile workspace disk file = .ok hash ↔
      file.safe workspace = true ∧ (disk.files file).map workspace.platform.contentHash = hash := by
  rw [hashOptionalFile]
  split
  · next safe => simp [safe]
  · next unsafe_ => simp [unsafe_]

theorem requireSourceHash_ok :
    requireSourceHash workspace disk source expected = .ok () ↔
      source.safe workspace = true ∧ (disk.files source).map workspace.platform.contentHash = some expected := by
  simp only [requireSourceHash, except_bind_ok, demand_ok, hashOptionalFile_ok, beq_iff_eq]
  constructor
  · intro ⟨hash, ⟨safe, same⟩, expected⟩
    exact ⟨safe, same.trans expected⟩
  · intro ⟨safe, same⟩
    exact ⟨_, ⟨safe, rfl⟩, same⟩

theorem requireTargetHash_ok {target : File} {expected : Option String} :
    requireTargetHash workspace disk target expected = .ok () ↔
      target.safe workspace = true ∧ (disk.files target).map workspace.platform.contentHash = expected := by
  simp only [requireTargetHash, except_bind_ok, demand_ok, hashOptionalFile_ok, beq_iff_eq]
  constructor
  · intro ⟨hash, ⟨safe, same⟩, expected⟩
    exact ⟨safe, same.trans expected⟩
  · intro ⟨safe, same⟩
    exact ⟨_, ⟨safe, rfl⟩, same⟩

theorem revalidatePaths_triple {target : File} (stopped : ∀ disk, pre disk → cut disk)
    (valid : total → revalidate = true → ∀ disk, pre disk →
      revalidateOwnedFile workspace disk source false = .ok () ∧ revalidateOwnedFile workspace disk target true = .ok ()) :
    Triple total pre (revalidatePaths workspace revalidate source target) (fun _ => pre) cut := by
  cases revalidate with
  | false => exact Triple.ret fun _ => id
  | true =>
    refine (Triple.check_keep stopped ?_).forget
    intro must disk holds
    obtain ⟨one, two⟩ := valid must rfl disk holds
    exact ⟨(), except_bind_ok.mpr ⟨(), one, two⟩⟩

structure Attempt (workspace : Workspace) (source target : File) (lock : String) (expectedNonce : Option String)
    (expectedSource : String) (expectedTarget : Option String) (revalidate : Bool) (disk : Disk) : Prop where
  matched : Matches workspace source target expectedSource expectedTarget disk
  safe : source.safe workspace = true ∧ target.safe workspace = true
  fenced : Fenced lock expectedNonce disk
  valid : revalidate = true →
    revalidateOwnedFile workspace disk source false = .ok () ∧ revalidateOwnedFile workspace disk target true = .ok ()

theorem verifyAttempt_triple {target : File}
    {expectedSource : String} {expectedTarget : Option String}
    (stopped : ∀ disk, pre disk → cut disk)
    (passes : total → ∀ disk, pre disk →
      Attempt workspace source target lock expectedNonce expectedSource expectedTarget revalidate disk) :
    Triple total pre (verifyAttempt workspace source target lock expectedNonce expectedSource expectedTarget revalidate)
      (fun _ disk => pre disk ∧ Matches workspace source target expectedSource expectedTarget disk) cut := by
  have revalidated : Triple total pre (revalidatePaths workspace revalidate source target) (fun _ => pre) cut :=
    revalidatePaths_triple stopped fun must wanted disk holds => (passes must disk holds).valid wanted
  refine Triple.bind revalidated fun _ => Triple.bind (show Triple total pre _ (fun _ disk =>
    pre disk ∧ Matches workspace source target expectedSource expectedTarget disk) cut from ?_) fun _ => ?_
  · refine (Triple.check_keep stopped ?_).ensuring ?_
    · intro must disk holds
      obtain ⟨⟨source, target⟩, ⟨safeSource, safeTarget⟩, _, _⟩ := passes must disk holds
      exact ⟨(), except_bind_ok.mpr ⟨(), requireSourceHash_ok.mpr ⟨safeSource, source⟩,
        requireTargetHash_ok.mpr ⟨safeTarget, target⟩⟩⟩
    · intro _ disk kept
      obtain ⟨_, source, target⟩ := except_bind_ok.mp kept.2
      exact ⟨kept.1, (requireSourceHash_ok.mp source).2, (requireTargetHash_ok.mp target).2⟩
  · refine Triple.bind (revalidatePaths_triple (fun disk holds => stopped disk holds.1)
      fun must wanted disk holds => (passes must disk holds.1).valid wanted) fun _ => ?_
    exact verifyLock_triple (fun disk holds => stopped disk holds.1) fun must disk holds => (passes must disk holds.1).fenced

/-- A replacement by the staging layer, from what its guard tests. -/
theorem replaceWithRetry_triple {target : File} {expectedSource : String} {expectedTarget : Option String}
    (stopped : ∀ disk, pre disk → cut disk) (finished : ∀ disk, post disk → cut disk)
    (moved : ∀ disk, cut disk → Matches workspace source target expectedSource expectedTarget disk →
      post (disk.moved source target))
    (passes : total → ∀ disk, pre disk →
      Attempt workspace source target lock expectedNonce expectedSource expectedTarget revalidate disk) :
    Triple total pre
      (replaceWithRetry workspace source target lock expectedNonce expectedSource expectedTarget revalidate)
      (fun _ => post) cut := by
  refine systemReplaceWithRetry_triple stopped finished ?_ (verifyAttempt_triple stopped passes)
    (verifyAttempt_triple (fun _ => id) fun never => never.elim) fun disk holds seen _ => moved disk holds seen
  intro _ disk seen
  have hashed := seen.source
  cases content : disk.files source with
  | none => rw [content] at hashed; cases hashed
  | some bytes => rfl

structure Removal (workspace : Workspace) (target : File) (lock : String) (expectedNonce : Option String)
    (expected : String) (revalidate : Bool) (disk : Disk) : Prop where
  safe : target.safe workspace = true
  fenced : Fenced lock expectedNonce disk
  valid : revalidate = true → revalidateOwnedFile workspace disk target true = .ok ()
  known : ∀ content, disk.files target = some content → workspace.platform.contentHash content = expected

section
variable (stopped : ∀ disk, pre disk → cut disk)
include stopped

theorem unlinkMissingOk_triple {file : File}
    (finished : ∀ disk, post disk → cut disk) (removed : ∀ disk, pre disk → post (disk.set file none))
    (gone : ∀ disk, cut disk → disk.files file = none → post disk) :
    Triple total pre (unlinkMissingOk file) (fun _ => post) cut := by
  refine Triple.handle (Triple.perform fun disk holds => ?_) (fun _ => id) fun failure => Triple.check ?_ ?_
  · exact ⟨removed disk holds, stopped disk holds, finished _ (removed disk holds), fun _ => stopped disk holds⟩
  · intro disk holds _ seen
    have facts := demand_ok.mp seen
    rw [Bool.and_eq_true, Option.isNone_iff_eq_none] at facts
    exact gone disk holds facts.2
  · intro disk holds _ _
    exact ⟨holds, id⟩

theorem revalidateTarget_triple {target : File}
    (valid : total → revalidate = true → ∀ disk, pre disk → revalidateOwnedFile workspace disk target true = .ok ()) :
    Triple total pre (revalidateTarget workspace revalidate target) (fun _ => pre) cut := by
  cases revalidate with
  | false => exact Triple.ret fun _ => id
  | true =>
    refine (Triple.check_keep stopped ?_).forget
    exact fun must disk holds => ⟨(), valid must rfl disk holds⟩

section
variable {target : File} (finished : ∀ disk, post disk → cut disk) (gone : ∀ disk, cut disk → disk.files target = none → post disk)
  (removed : ∀ disk, cut disk → (disk.files target).map workspace.platform.contentHash = some expected → post (disk.set target none))
include finished gone removed

theorem removeAttempt_triple
    (passes : total → ∀ disk, pre disk → Removal workspace target lock expectedNonce expected revalidate disk) :
    Triple total pre (removeAttempt workspace target expected lock expectedNonce revalidate) (fun _ => post) cut := by
  refine Triple.bind (revalidateTarget_triple stopped fun must wanted disk holds =>
    (passes must disk holds).valid wanted) fun _ => ?_
  refine Triple.bind (Triple.check_keep stopped fun must disk holds =>
    ⟨_, hashOptionalFile_ok.mpr ⟨(passes must disk holds).safe, rfl⟩⟩) fun current => ?_
  refine Triple.bind (revalidateTarget_triple (fun disk holds => stopped disk holds.1) fun must wanted disk holds =>
    (passes must disk holds.1).valid wanted) fun _ => ?_
  refine Triple.bind (verifyLock_triple (fun disk holds => stopped disk holds.1) fun must disk holds =>
    (passes must disk holds.1).fenced) fun _ => ?_
  cases current with
  | none =>
    refine Triple.ret fun disk holds => gone disk (stopped disk holds.1) ?_
    exact Option.map_eq_none_iff.mp (hashOptionalFile_ok.mp holds.2).2
  | some hash =>
    refine Triple.bind (Triple.ensure_keep (fun disk holds => stopped disk holds.1) ?_) fun _ => ?_
    · intro must disk holds
      obtain ⟨content, present, same⟩ := Option.map_eq_some_iff.mp (hashOptionalFile_ok.mp holds.2).2
      rw [beq_iff_eq, ← same]
      exact (passes must disk holds.1).known content present
    · refine unlinkMissingOk_triple (fun disk holds => stopped disk holds.1.1) finished ?_ gone
      intro disk holds
      refine removed disk (stopped disk holds.1.1) ?_
      rw [(hashOptionalFile_ok.mp holds.1.2).2, beq_iff_eq.mp holds.2]

theorem unlinkWithRetry_triple
    (passes : total → ∀ disk, pre disk → Removal workspace target lock expectedNonce expected revalidate disk) :
    Triple total pre (unlinkWithRetry workspace target expected lock expectedNonce revalidate) (fun _ => post) cut :=
  Triple.retry workspace.positive (Triple.ret fun _ => id) (removeAttempt_triple stopped finished gone removed passes)
    (removeAttempt_triple (fun _ => id) finished gone removed fun never => never.elim)

end

end

end Workctx.Staging
