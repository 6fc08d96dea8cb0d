import Workctx.Locking.Guard

/-! The order of the contenders: what holds of the staging directory in every state, and what the steps
of one contender leave to the others. -/

namespace Workctx.Locking
open Workctx.Concurrent

section
variable (process : Nat → Process)

/-- The process has stopped, or the contender has given its entries up. -/
def Gone (world : GuardWorld) (nonce : Nat) : Prop := world.alive (process nonce) = false ∨ world.stage nonce = .left

def Holding (world : GuardWorld) (nonce ticket : Nat) : Prop :=
  world.stage nonce = .published ticket ∨ world.stage nonce = .inside ticket

def Retired (world : GuardWorld) (kind : Kind) (nonce : Nat) : Prop :=
  Gone process world nonce ∨ kind = .choosing ∧ ∃ ticket, Holding world nonce ticket

/-- In this stage a contender comes behind the published ticket of another one: it will see the
ticket when it draws its own, or it has drawn a larger one. -/
def ComesBehind (nonce ticket other : Nat) : Stage → Prop
  | .before => True
  | .created => True
  | .announced => True
  | .numbering floor => floor nonce = some ticket
  | .ticketed number => ticket < number ∨ ticket = number ∧ nonce < other
  | .published number => ticket < number ∨ ticket = number ∧ nonce < other
  | .inside number => ticket < number ∨ ticket = number ∧ nonce < other
  | .left => True

def Behind (world : GuardWorld) (nonce ticket other : Nat) : Prop :=
  Gone process world other ∨ ComesBehind nonce ticket other (world.stage other)

def Announcing : Stage → Prop
  | .announced => True
  | .numbering _ => True
  | .ticketed _ => True
  | _ => False

def Written (world : GuardWorld) (kind : Kind) (nonce ticket : Nat) : Prop :=
  ∃ file metadata, world.files.get (.entry kind nonce) = some file ∧ file.metadata = some metadata ∧
    metadata.ticket = ticket

def Owns (kind : Kind) (nonce : Nat) (metadata : GuardMetadata) : Prop :=
  matchesName kind nonce metadata = true ∧ metadata.hostname = (process nonce).hostname ∧
    metadata.pid = (process nonce).pid

structure Placed (world : GuardWorld) (nonce : Nat) : Prop where
  contents : ∀ kind file metadata, world.files.get (.entry kind nonce) = some file → file.metadata = some metadata →
    Owns process kind nonce metadata
  uncancelled : ∀ kind, ¬Retired process world kind nonce → world.files.get (.cancelled kind nonce) = none
  created : ¬Gone process world nonce → world.stage nonce = .created →
    (world.files.get (.entry .choosing nonce)).isSome = true
  announced : ¬Gone process world nonce → Announcing (world.stage nonce) → Written world .choosing nonce 0
  ticketed : ∀ ticket, ¬Gone process world nonce → world.stage nonce = .ticketed ticket →
    (world.files.get (.entry .ticket nonce)).isSome = true
  holding : ∀ ticket, ¬Gone process world nonce → Holding world nonce ticket → Written world .ticket nonce ticket
  inside : ∀ ticket, ¬Gone process world nonce → world.stage nonce = .inside ticket → ∀ other, other ≠ nonce →
    Behind process world nonce ticket other

def Sound (world : GuardWorld) : Prop := ∀ nonce, Placed process world nonce

structure Rely (nonce : Nat) (before after : GuardWorld) : Prop where
  sound : Sound process before → Sound process after
  clock : before.now ≤ after.now
  gone : ∀ other, Gone process before other → Gone process after other
  holding : ∀ other ticket, Holding before other ticket → Holding after other ticket ∨ Gone process after other
  stage : after.stage nonce = before.stage nonce
  behind : ∀ ticket other, other ≠ nonce → Holding before nonce ticket → Behind process before nonce ticket other →
    Behind process after nonce ticket other ∨ Gone process after nonce

structure Fair (nonce : Nat) (before after : GuardWorld) : Prop where
  sound : Sound process before → Sound process after
  clock : before.now ≤ after.now
  gone : ∀ other, Gone process before other → Gone process after other
  holding : ∀ other ticket, Holding before other ticket → Holding after other ticket ∨ Gone process after other
  stages : ∀ other, other ≠ nonce → after.stage other = before.stage other
  behind : ∀ other ticket, other ≠ nonce → Holding before other ticket → ¬Gone process after other →
    Behind process before other ticket nonce → Behind process after other ticket nonce

structure Surroundings (before after : GuardWorld) : Prop where
  files : after.files = before.files
  stage : after.stage = before.stage
  clock : before.now ≤ after.now
  alive : ∀ caller, after.alive caller = true → before.alive caller = true

/-- No process that runs has left an entry without its content for longer than the age at which
it is removed. -/
def Prompt (world : GuardWorld) : Prop :=
  ∀ kind nonce file, world.files.get (.entry kind nonce) = some file → file.metadata = none →
    world.alive (process nonce) = true → world.now - file.modifiedAt ≤ malformedStaleAfter

end

section
variable {process : Nat → Process} {nonce other ticket : Nat} {before after : GuardWorld} {kind : Kind}

theorem retired_mono (gone : ∀ other, Gone process before other → Gone process after other)
    (holding : ∀ other ticket, Holding before other ticket → Holding after other ticket ∨ Gone process after other)
    (retired : Retired process before kind nonce) : Retired process after kind nonce := by
  rcases retired with absent | ⟨same, number, held⟩
  · exact .inl (gone nonce absent)
  · rcases holding nonce number held with still | absent
    · exact .inr ⟨same, number, still⟩
    · exact .inl absent

theorem Rely.retired (step : Rely process nonce before after) (retired : Retired process before kind other) :
    Retired process after kind other := retired_mono step.gone step.holding retired

variable {metadata : GuardMetadata} {file : GuardFile} {stage : Stage}

theorem Owns.named (owns : Owns process kind nonce metadata) : metadata.nonce = nonce :=
  eq_of_beq (Bool.and_eq_true_iff.mp owns.1).1

theorem Owns.unticketed (owns : Owns process .choosing nonce metadata) : metadata.ticket = 0 :=
  eq_of_beq (Bool.and_eq_true_iff.mp owns.1).2

theorem Rely.refl (nonce : Nat) (world : GuardWorld) : Rely process nonce world world :=
  ⟨id, Nat.le_refl _, fun _ => id, fun _ _ => .inl, rfl, fun _ _ _ _ => .inl⟩

theorem Rely.trans {one two three : GuardWorld} (first : Rely process nonce one two) (second : Rely process nonce two three) :
    Rely process nonce one three where
  sound := fun sound => second.sound (first.sound sound)
  clock := Nat.le_trans first.clock second.clock
  gone := fun other absent => second.gone other (first.gone other absent)
  holding := by
    intro other ticket held
    rcases first.holding other ticket held with still | absent
    · exact second.holding other ticket still
    · exact .inr (second.gone other absent)
  stage := second.stage.trans first.stage
  behind := by
    intro ticket other apart held behind
    have later : Holding two nonce ticket := by
      unfold Holding
      rw [first.stage]
      exact held
    rcases first.behind ticket other apart held behind with still | absent
    · exact second.behind ticket other apart later still
    · exact .inr (second.gone nonce absent)

theorem Fair.refl (nonce : Nat) (world : GuardWorld) : Fair process nonce world world :=
  ⟨id, Nat.le_refl _, fun _ => id, fun _ _ => .inl, fun _ _ => rfl, fun _ _ _ _ _ => id⟩

theorem Behind.congr {third : Nat} (gone : ∀ other, Gone process before other → Gone process after other)
    (same : after.stage third = before.stage third) (behind : Behind process before nonce ticket third) :
    Behind process after nonce ticket third := by
  rcases behind with absent | comes
  · exact .inl (gone third absent)
  · right
    rw [same]
    exact comes

theorem Fair.rely (fair : Fair process nonce before after) (apart : nonce ≠ other) : Rely process other before after where
  sound := fair.sound
  clock := fair.clock
  gone := fair.gone
  holding := fair.holding
  stage := fair.stages other apart.symm
  behind := by
    intro ticket third _ held behind
    by_cases absent : Gone process after other
    · exact .inr absent
    · left
      by_cases same : third = nonce
      · rw [same] at behind ⊢
        exact fair.behind other ticket apart.symm held absent behind
      · exact behind.congr fair.gone (fair.stages third same)

/-- What is said of a contender carries over where its files and its stage do, and the others stay
behind it. -/
theorem Placed.congr (placed : Placed process before nonce) (gone : ∀ other, Gone process before other → Gone process after other)
    (stage : after.stage nonce = before.stage nonce)
    (files : ∀ kind, ¬Retired process before kind nonce →
      after.files.get (.entry kind nonce) = before.files.get (.entry kind nonce) ∧
        after.files.get (.cancelled kind nonce) = none)
    (contents : ∀ kind file, after.files.get (.entry kind nonce) = some file →
      before.files.get (.entry kind nonce) = some file)
    (behind : ∀ ticket, ¬Gone process after nonce → Holding before nonce ticket → ∀ other, other ≠ nonce →
      Behind process before nonce ticket other → Behind process after nonce ticket other) : Placed process after nonce := by
  have here : ¬Gone process after nonce → ¬Gone process before nonce := fun still absent => still (gone nonce absent)
  have held : ∀ number, Holding after nonce number ↔ Holding before nonce number := by
    intro number
    unfold Holding
    rw [stage]
  have kept : ∀ kind, ¬Retired process after kind nonce → ¬Retired process before kind nonce := by
    intro kind still retired
    apply still
    rcases retired with absent | ⟨same, number, holds⟩
    · exact .inl (gone nonce absent)
    · exact .inr ⟨same, number, (held number).mpr holds⟩
  have choosing : ¬Gone process after nonce → (∀ number, ¬Holding before nonce number) →
      after.files.get (.entry .choosing nonce) = before.files.get (.entry .choosing nonce) := by
    intro still none_
    apply (files .choosing _).1
    rintro (absent | ⟨_, number, holds⟩)
    · exact here still absent
    · exact none_ number holds
  have tickets : ¬Gone process after nonce →
      after.files.get (.entry .ticket nonce) = before.files.get (.entry .ticket nonce) := by
    intro still
    apply (files .ticket _).1
    rintro (absent | ⟨same, _⟩)
    · exact here still absent
    · cases same
  refine ⟨?_, ?_, ?_, ?_, ?_, ?_, ?_⟩
  · intro kind file metadata found
    exact placed.contents kind file metadata (contents kind file found)
  · intro kind still
    exact (files kind (kept kind still)).2
  · intro still created
    rw [stage] at created
    rw [choosing still]
    · exact placed.created (here still) created
    · rintro number (holds | holds) <;> rw [created] at holds <;> cases holds
  · intro still announced
    rw [stage] at announced
    unfold Written
    rw [choosing still]
    · exact placed.announced (here still) announced
    · rintro number (holds | holds) <;> rw [holds] at announced <;> exact announced
  · intro number still same
    rw [stage] at same
    rw [tickets still]
    exact placed.ticketed number (here still) same
  · intro number still holds
    unfold Written
    rw [tickets still]
    exact placed.holding number (here still) ((held number).mp holds)
  · intro number still same other apart
    rw [stage] at same
    exact behind number still (.inr same) other apart (placed.inside number (here still) same other apart)

theorem Surroundings.rely (around : Surroundings before after) (nonce : Nat) : Rely process nonce before after := by
  have gone : ∀ other, Gone process before other → Gone process after other := by
    intro other absent
    unfold Gone
    rw [around.stage]
    rcases absent with stopped | left_
    · left
      cases running : after.alive (process other) with
      | false => rfl
      | true => exact absurd (around.alive _ running) (by rw [stopped]; decide)
    · exact .inr left_
  have stage : ∀ other, after.stage other = before.stage other := fun other => congrFun around.stage other
  refine ⟨?_, around.clock, gone, ?_, stage nonce, ?_⟩
  · intro sound other
    apply (sound other).congr gone (stage other)
    · intro kind still
      rw [around.files]
      exact ⟨rfl, (sound other).uncancelled kind still⟩
    · intro kind file found
      rw [← around.files]
      exact found
    · exact fun _ _ _ third _ behind => behind.congr gone (stage third)
  · intro other number held
    left
    unfold Holding
    rw [stage]
    exact held
  · exact fun _ other _ _ behind => .inl (behind.congr gone (stage other))

/-! Steps. -/

theorem Fair.files {files : Directory GuardName GuardFile}
    (entries : ∀ kind other, ¬Retired process before kind other → files.get (.entry kind other) = before.files.get (.entry kind other))
    (cancelled : ∀ kind other, ¬Retired process before kind other → before.files.get (.cancelled kind other) = none →
      files.get (.cancelled kind other) = none)
    (contents : ∀ kind other file, files.get (.entry kind other) = some file →
      before.files.get (.entry kind other) = some file) :
    Fair process nonce before { before with files := files } := by
  refine ⟨?_, Nat.le_refl _, fun _ => id, fun _ _ => .inl, fun _ _ => rfl, fun _ _ _ _ _ => id⟩
  intro sound other
  have gone : ∀ other, Gone process before other → Gone process { before with files := files } other := fun _ => id
  apply (sound other).congr gone rfl
  · intro kind still
    exact ⟨entries kind other still, cancelled kind other still ((sound other).uncancelled kind still)⟩
  · exact fun kind file => contents kind other file
  · exact fun _ _ _ _ _ => id

theorem Fair.erased (retired : Retired process before kind other) :
    Fair process nonce before { before with files := before.files.erase (.entry kind other) } := by
  apply Fair.files
  · intro kind' other' still
    apply Directory.get_erase_of_ne
    intro same
    cases same
    exact still retired
  · intro kind' other' _ absent
    rw [Directory.get_erase_of_ne (by simp)]
    exact absent
  · intro kind' other' file found
    by_cases same : GuardName.entry kind' other' = .entry kind other
    · rw [same, Directory.get_erase_self] at found
      cases found
    · rw [Directory.get_erase_of_ne same] at found
      exact found

theorem Fair.erasedCancellation :
    Fair process nonce before { before with files := before.files.erase (.cancelled kind other) } := by
  apply Fair.files
  · intro kind' other' _
    exact Directory.get_erase_of_ne (by simp)
  · intro kind' other' _ absent
    by_cases same : GuardName.cancelled kind' other' = .cancelled kind other
    · rw [same]
      exact Directory.get_erase_self _ _
    · rw [Directory.get_erase_of_ne same]
      exact absent
  · intro kind' other' file found
    rw [Directory.get_erase_of_ne (by simp)] at found
    exact found

theorem Fair.cancelled (retired : Retired process before kind other) :
    Fair process nonce before { before with files := before.files.put (.cancelled kind other) file } := by
  apply Fair.files
  · intro kind' other' _
    exact Directory.get_put_of_ne (by simp)
  · intro kind' other' still absent
    rw [Directory.get_put_of_ne]
    · exact absent
    · intro same
      cases same
      exact still retired
  · intro kind' other' found here
    rw [Directory.get_put_of_ne (by simp)] at here
    exact here

structure Fits (process : Nat → Process) (before : GuardWorld) (nonce : Nat) (files : Directory GuardName GuardFile)
    (stage : Stage) : Prop where
  uncancelled : ∀ kind, (kind = .choosing → ∀ ticket, stage ≠ .published ticket ∧ stage ≠ .inside ticket) →
    files.get (.cancelled kind nonce) = none
  created : stage = .created → (files.get (.entry .choosing nonce)).isSome = true
  announced : Announcing stage → Written { before with files := files } .choosing nonce 0
  ticketed : ∀ ticket, stage = .ticketed ticket → (files.get (.entry .ticket nonce)).isSome = true
  holding : ∀ ticket, stage = .published ticket ∨ stage = .inside ticket →
    Written { before with files := files } .ticket nonce ticket
  inside : ∀ ticket, stage = .inside ticket → ∀ other, other ≠ nonce → Behind process before nonce ticket other

theorem Placed.moved {files : Directory GuardName GuardFile}
    (contents : ∀ kind file metadata, files.get (.entry kind nonce) = some file → file.metadata = some metadata →
      Owns process kind nonce metadata)
    (fits : before.alive (process nonce) = true → stage ≠ .left → Fits process before nonce files stage) :
    Placed process ({ before with files := files }.mark nonce stage) nonce := by
  have here : ({ before with files := files }.mark nonce stage).stage nonce = stage := Function.update_self ..
  have there : ∀ other, other ≠ nonce → ({ before with files := files }.mark nonce stage).stage other = before.stage other :=
    fun other apart => Function.update_of_ne apart ..
  have needed : ¬Gone process ({ before with files := files }.mark nonce stage) nonce → Fits process before nonce files stage := by
    intro still
    apply fits
    · cases running : before.alive (process nonce) with
      | true => rfl
      | false => exact absurd (.inl running) still
    · intro same
      exact still (.inr (here.trans same))
  refine ⟨contents, ?_, ?_, ?_, ?_, ?_, ?_⟩
  · intro kind still
    apply (needed fun absent => still (.inl absent)).uncancelled
    intro same number
    constructor
    · intro published
      exact still (.inr ⟨same, number, .inl (here.trans published)⟩)
    · intro inside
      exact still (.inr ⟨same, number, .inr (here.trans inside)⟩)
  · intro still same
    exact (needed still).created (here.symm.trans same)
  · intro still same
    rw [here] at same
    exact (needed still).announced same
  · intro number still same
    exact (needed still).ticketed number (here.symm.trans same)
  · intro number still held
    unfold Holding at held
    rw [here] at held
    exact (needed still).holding number held
  · intro number still same other apart
    have behind := (needed still).inside number (here.symm.trans same) other apart
    rcases behind with (stopped | left_) | comes
    · exact .inl (.inl stopped)
    · left
      right
      exact (there other apart).trans left_
    · right
      rw [there other apart]
      exact comes

theorem Fair.moved {files : Directory GuardName GuardFile}
    (elsewhere : ∀ kind other, other ≠ nonce → files.get (.entry kind other) = before.files.get (.entry kind other) ∧
      files.get (.cancelled kind other) = before.files.get (.cancelled kind other))
    (own : Sound process before → Placed process ({ before with files := files }.mark nonce stage) nonce)
    (gone : before.stage nonce = .left → stage = .left)
    (holding : ∀ ticket, Holding before nonce ticket →
      stage = .published ticket ∨ stage = .inside ticket ∨ stage = .left)
    (behind : ∀ other ticket, other ≠ nonce → Holding before other ticket → ¬Gone process before other →
      Behind process before other ticket nonce → before.alive (process nonce) = true → ComesBehind other ticket nonce stage) :
    Fair process nonce before ({ before with files := files }.mark nonce stage) := by
  have here : ({ before with files := files }.mark nonce stage).stage nonce = stage := Function.update_self ..
  have there : ∀ other, other ≠ nonce → ({ before with files := files }.mark nonce stage).stage other = before.stage other :=
    fun other apart => Function.update_of_ne apart ..
  have absent : ∀ other, Gone process before other → Gone process ({ before with files := files }.mark nonce stage) other := by
    intro other absent
    unfold Gone
    rcases absent with stopped | left_
    · exact .inl stopped
    · right
      by_cases same : other = nonce
      · rw [same] at left_ ⊢
        rw [here]
        exact gone left_
      · rw [there other same]
        exact left_
  have after : ∀ other ticket, other ≠ nonce → Holding before other ticket →
      ¬Gone process ({ before with files := files }.mark nonce stage) other → Behind process before other ticket nonce →
      Behind process ({ before with files := files }.mark nonce stage) other ticket nonce := by
    intro other number apart held still comes
    cases running : before.alive (process nonce) with
    | false => exact .inl (.inl running)
    | true =>
      right
      rw [here]
      exact behind other number apart held (fun absent_ => still (absent other absent_)) comes running
  refine ⟨?_, Nat.le_refl _, absent, ?_, there, after⟩
  · intro sound other
    by_cases same : other = nonce
    · rw [same]
      exact own sound
    · apply (sound other).congr absent (there other same)
      · intro kind still
        obtain ⟨entry, cancelled⟩ := elsewhere kind other same
        exact ⟨entry, cancelled.trans ((sound other).uncancelled kind still)⟩
      · intro kind file found
        rw [← (elsewhere kind other same).1]
        exact found
      · intro number still held third _ comes
        by_cases own_ : third = nonce
        · rw [own_] at comes ⊢
          exact after other number same held still comes
        · exact comes.congr absent (there third own_)
  · intro other number held
    unfold Holding
    by_cases same : other = nonce
    · rw [same] at held ⊢
      rw [here]
      rcases holding number held with still | still | left_
      · exact .inl (.inl still)
      · exact .inl (.inr still)
      · exact .inr (.inr (here.trans left_))
    · rw [there other same]
      exact .inl held

theorem Placed.marked (placed : Placed process before nonce)
    (fits : before.alive (process nonce) = true → stage ≠ .left → Fits process before nonce before.files stage) :
    Placed process (before.mark nonce stage) nonce := Placed.moved placed.contents fits

theorem put_elsewhere {files : Directory GuardName GuardFile} (own : Kind) :
    ∀ kind other, other ≠ nonce →
      (files.put (.entry own nonce) file).get (.entry kind other) = files.get (.entry kind other) ∧
        (files.put (.entry own nonce) file).get (.cancelled kind other) = files.get (.cancelled kind other) := by
  intro kind other apart
  constructor
  · apply Directory.get_put_of_ne
    intro same
    cases same
    exact apart rfl
  · exact Directory.get_put_of_ne (by simp)

/-- A contender that holds nothing has only entries that are needed, unless it is gone. -/
theorem retired_of_stage (none_ : ∀ ticket, ¬Holding before nonce ticket) :
    Retired process before kind nonce ↔ Gone process before nonce := by
  constructor
  · rintro (absent | ⟨_, number, held⟩)
    · exact absent
    · exact absurd held (none_ number)
  · exact .inl

theorem contents_put (placed : Placed process before nonce) {own : Kind} {content : Option GuardMetadata} {time : Nat}
    (owns : ∀ metadata, content = some metadata → Owns process own nonce metadata) (kind : Kind) (file : GuardFile)
    (metadata : GuardMetadata) (found : (before.files.put (.entry own nonce) ⟨content, time⟩).get (.entry kind nonce) = some file)
    (written : file.metadata = some metadata) : Owns process kind nonce metadata := by
  by_cases same : kind = own
  · subst same
    rw [Directory.get_put_self] at found
    cases found
    exact owns metadata written
  · rw [Directory.get_put_of_ne (by simp [same])] at found
    exact placed.contents kind file metadata found written

theorem not_gone (running : before.alive (process nonce) = true) (stays : before.stage nonce ≠ .left) :
    ¬Gone process before nonce := by
  rintro (stopped | left_)
  · rw [running] at stopped
    cases stopped
  · exact stays left_

/-- The cancellations behind a change of entries of a contender that is there and holds nothing. -/
theorem uncancelled_put (placed : Placed process before nonce) (still : ¬Gone process before nonce)
    (free : ∀ ticket, ¬Holding before nonce ticket) {own : Kind} (kind : Kind) :
    (before.files.put (.entry own nonce) file).get (.cancelled kind nonce) = none := by
  rw [Directory.get_put_of_ne (by simp)]
  apply placed.uncancelled
  rw [retired_of_stage free]
  exact still

theorem free_of_stage (here : before.stage nonce = stage)
    (free : ∀ ticket, stage ≠ .published ticket ∧ stage ≠ .inside ticket) (ticket : Nat) : ¬Holding before nonce ticket := by
  rintro (held | held)
  · exact (free ticket).1 (here.symm.trans held)
  · exact (free ticket).2 (here.symm.trans held)

theorem Fair.create (start : before.stage nonce = .before) :
    Fair process nonce before
      ({ before with files := before.files.put (.entry .choosing nonce) ⟨none, before.now⟩ }.mark nonce .created) := by
  have free := free_of_stage start fun _ => ⟨nofun, nofun⟩
  apply Fair.moved (put_elsewhere .choosing)
  · intro sound
    refine Placed.moved (contents_put (sound nonce) (by nofun)) ?_
    intro running _
    have still := not_gone running (by rw [start]; nofun)
    exact {
      uncancelled := fun kind _ => uncancelled_put (sound nonce) still free kind
      created := fun _ => by rw [Directory.get_put_self]; rfl
      announced := nofun
      ticketed := nofun
      holding := fun number held => by rcases held with held | held <;> cases held
      inside := nofun }
  · intro same
    rw [start] at same
    cases same
  · exact fun number held => absurd held (free number)
  · exact fun _ _ _ _ _ _ _ => trivial

theorem Fair.announce (start : before.stage nonce = .created) (running : before.alive (process nonce) = true) (owns : Owns process .choosing nonce metadata) :
    Fair process nonce before ((before.fill (.entry .choosing nonce) metadata).mark nonce .announced) := by
  have free := free_of_stage start fun _ => ⟨nofun, nofun⟩
  have still := not_gone running (by rw [start]; nofun)
  have same : before.stage nonce = .left → Stage.announced = .left := by
    rw [start]
    nofun
  unfold GuardWorld.fill
  cases there : before.files.get (.entry .choosing nonce) with
  | none =>
    apply Fair.moved (fun _ _ _ => ⟨rfl, rfl⟩) _ same fun ticket held => absurd held (free ticket)
    · exact fun _ _ _ _ _ _ _ => trivial
    · intro sound
      have present := (sound nonce).created still start
      rw [there] at present
      cases present
  | some file =>
    apply Fair.moved (put_elsewhere .choosing) _ same fun ticket held => absurd held (free ticket)
    · exact fun _ _ _ _ _ _ _ => trivial
    · intro sound
      apply Placed.moved
      · apply contents_put (sound nonce)
        intro other written
        cases written
        exact owns
      · intro _ _
        exact {
          uncancelled := fun kind _ => uncancelled_put (sound nonce) still free kind
          created := nofun
          announced := fun _ => ⟨_, metadata, Directory.get_put_self _ _ _, rfl, owns.unticketed⟩
          ticketed := nofun
          holding := fun number held => by rcases held with held | held <;> cases held
          inside := nofun }

theorem Fair.number (start : before.stage nonce = .announced) (running : before.alive (process nonce) = true) :
    Fair process nonce before (before.mark nonce (drawing process before)) := by
  have free := free_of_stage start fun _ => ⟨nofun, nofun⟩
  have still := not_gone running (by rw [start]; nofun)
  apply Fair.moved (fun _ _ _ => ⟨rfl, rfl⟩)
  · intro sound
    apply Placed.marked (sound nonce)
    intro _ _
    exact {
      uncancelled := fun kind _ => (sound nonce).uncancelled kind (by rw [retired_of_stage free]; exact still)
      created := nofun
      announced := fun _ => (sound nonce).announced still (by rw [start]; trivial)
      ticketed := nofun
      holding := fun number held => by rcases held with held | held <;> cases held
      inside := nofun }
  · rw [start]
    nofun
  · exact fun ticket held => absurd held (free ticket)
  · intro other ticket _ held here _ _
    have alive : before.alive (process other) = true := by
      cases found : before.alive (process other) with
      | true => rfl
      | false => exact absurd (.inl found) here
    change publishedTickets process before other = some ticket
    unfold publishedTickets
    rcases held with held | held <;> rw [held] <;> exact if_pos alive

theorem Fair.draw {floor : Nat → Option Nat} (start : before.stage nonce = .numbering floor)
    (running : before.alive (process nonce) = true)
    (larger : ∀ other number, floor other = some number → number < ticket ∨ Gone process before other) :
    Fair process nonce before
      ({ before with files := before.files.put (.entry .ticket nonce) ⟨none, before.now⟩ }.mark nonce (.ticketed ticket)) := by
  have free := free_of_stage start fun _ => ⟨nofun, nofun⟩
  have still := not_gone running (by rw [start]; nofun)
  apply Fair.moved (put_elsewhere .ticket)
  · intro sound
    refine Placed.moved (contents_put (sound nonce) (by nofun)) ?_
    intro _ _
    exact {
      uncancelled := fun kind _ => uncancelled_put (sound nonce) still free kind
      created := nofun
      announced := by
        intro _
        obtain ⟨file, metadata, found, written, zero⟩ := (sound nonce).announced still (by rw [start]; trivial)
        exact ⟨file, metadata, (Directory.get_put_of_ne (by simp)).trans found, written, zero⟩
      ticketed := by
        intro number same
        cases same
        rw [Directory.get_put_self]
        rfl
      holding := fun number held => by rcases held with held | held <;> cases held
      inside := nofun }
  · rw [start]
    nofun
  · exact fun ticket held => absurd held (free ticket)
  · intro other number _ _ here behind _
    rcases behind with absent | comes
    · exact absurd absent still
    · rw [start] at comes
      rcases larger other number comes with less | absent
      · exact .inl less
      · exact absurd absent here

theorem Fair.publish (start : before.stage nonce = .ticketed ticket) (running : before.alive (process nonce) = true) (owns : Owns process .ticket nonce metadata) (number : metadata.ticket = ticket) :
    Fair process nonce before ((before.fill (.entry .ticket nonce) metadata).mark nonce (.published ticket)) := by
  have free := free_of_stage start fun _ => ⟨nofun, nofun⟩
  have still := not_gone running (by rw [start]; nofun)
  have same : before.stage nonce = .left → Stage.published ticket = .left := by
    rw [start]
    nofun
  have after : ∀ other number, other ≠ nonce → Holding before other number → ¬Gone process before other →
      Behind process before other number nonce → before.alive (process nonce) = true →
      ComesBehind other number nonce (.published ticket) := by
    intro other number _ _ _ behind _
    rcases behind with absent | comes
    · exact absurd absent still
    · rw [start] at comes
      exact comes
  unfold GuardWorld.fill
  cases there : before.files.get (.entry .ticket nonce) with
  | none =>
    apply Fair.moved (fun _ _ _ => ⟨rfl, rfl⟩) _ same (fun ticket held => absurd held (free ticket)) after
    intro sound
    have present := (sound nonce).ticketed ticket still start
    rw [there] at present
    cases present
  | some file =>
    apply Fair.moved (put_elsewhere .ticket) _ same (fun ticket held => absurd held (free ticket)) after
    intro sound
    apply Placed.moved
    · apply contents_put (sound nonce)
      intro other written
      cases written
      exact owns
    · intro _ _
      exact {
        uncancelled := fun kind _ => uncancelled_put (sound nonce) still free kind
        created := nofun
        announced := nofun
        ticketed := nofun
        holding := by
          intro other held
          rcases held with held | held <;> cases held
          exact ⟨_, metadata, Directory.get_put_self _ _ _, rfl, number⟩
        inside := nofun }

theorem Fair.enter (start : before.stage nonce = .published ticket) (running : before.alive (process nonce) = true)
    (last : ∀ other, other ≠ nonce → Behind process before nonce ticket other) :
    Fair process nonce before (before.mark nonce (.inside ticket)) := by
  have still := not_gone running (by rw [start]; nofun)
  apply Fair.moved (fun _ _ _ => ⟨rfl, rfl⟩)
  · intro sound
    apply Placed.marked (sound nonce)
    intro _ _
    exact {
      uncancelled := by
        intro kind free
        apply (sound nonce).uncancelled
        rintro (absent | ⟨same, _⟩)
        · exact still absent
        · exact (free same ticket).2 rfl
      created := nofun
      announced := nofun
      ticketed := nofun
      holding := by
        intro number held
        rcases held with held | held <;> cases held
        exact (sound nonce).holding ticket still (.inl start)
      inside := by
        intro number same
        cases same
        exact last }
  · rw [start]
    nofun
  · intro number held
    rcases held with held | held <;> rw [start] at held <;> cases held
    exact .inr (.inl rfl)
  · intro other number _ _ _ behind _
    rcases behind with absent | comes
    · exact absurd absent still
    · rw [start] at comes
      exact comes

theorem Fair.leave : Fair process nonce before (before.mark nonce .left) := by
  apply Fair.moved (fun _ _ _ => ⟨rfl, rfl⟩)
  · intro sound
    exact Placed.marked (sound nonce) fun _ stays => absurd rfl stays
  · exact fun _ => rfl
  · exact fun _ _ => .inr (.inr rfl)
  · exact fun _ _ _ _ _ _ _ => trivial

theorem mark_stage : before.mark nonce (before.stage nonce) = before := by
  unfold GuardWorld.mark
  rw [Function.update_eq_self]

end
end Workctx.Locking
