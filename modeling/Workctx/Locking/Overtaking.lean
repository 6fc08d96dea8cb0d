import Workctx.Locking.Turns

/-! The guard is entered in the order of the draws: a contender whose ticket is published is not overtaken by
one that had not begun its draw. -/

namespace Workctx.Locking
open Workctx.Concurrent

/-- The contender has not begun to read the tickets of the others. -/
def Undrawn : Stage → Prop
  | .before => True
  | .created => True
  | .announced => True
  | _ => False

theorem Undrawn.comes {one ticket other : Nat} {stage : Stage} (undrawn : Undrawn stage) : ComesBehind one ticket other stage := by
  cases stage <;> first | exact trivial | exact False.elim undrawn

section
variable (process : Nat → Process) (one other ticket : Nat) {before middle after : GuardWorld}

/-- A contender with a ticket gives its entries up, or keeps the ticket and the other one behind it. -/
structure Queues (before after : GuardWorld) : Prop where
  sound : Sound process before → Sound process after
  gone : Gone process before one → Gone process after one
  waits : Holding before one ticket ∧ Behind process before one ticket other →
    Gone process after one ∨ Holding after one ticket ∧ Behind process after one ticket other

variable {process one other ticket}

theorem Queues.refl (world : GuardWorld) : Queues process one other ticket world world := ⟨id, id, .inr⟩

theorem Queues.trans (first : Queues process one other ticket before middle) (second : Queues process one other ticket middle after) :
    Queues process one other ticket before after :=
  ⟨fun sound => second.sound (first.sound sound), fun gone => second.gone (first.gone gone),
    fun waits => (first.waits waits).elim (fun gone => .inl (second.gone gone)) second.waits⟩

section
variable (apart : one ≠ other)
include apart

theorem Fair.queues {nonce : Nat} (fair : Fair process nonce before after) : Queues process one other ticket before after := by
  refine ⟨fair.sound, fair.gone one, fun ⟨held, behind⟩ => ?_⟩
  by_cases gone : Gone process after one
  · exact .inl gone
  refine .inr ⟨(fair.holding one ticket held).resolve_right gone, ?_⟩
  by_cases own : other = nonce
  · subst own
    exact fair.behind one ticket apart held gone behind
  · exact behind.imp (fair.gone other) fun comes => by rwa [fair.stages other own]

theorem Surroundings.queues (around : Surroundings before after) : Queues process one other ticket before after := by
  have rely : Rely process one before after := around.rely one
  refine ⟨rely.sound, rely.gone one, fun ⟨held, behind⟩ => ?_⟩
  rcases rely.behind ticket other apart.symm held behind with still | gone
  · exact (rely.holding one ticket held).symm.imp_right fun holding => ⟨holding, still⟩
  · exact .inl gone

/-- Who is inside is not behind a contender that still has its ticket. -/
theorem Sound.gone_of_inside (sound : Sound process after) (held : Holding after one ticket)
    (behind : Behind process after one ticket other) (enters : Enters process after other) : Gone process after one := by
  obtain ⟨⟨number, here⟩, running⟩ := enters
  have stays : ¬Gone process after other := not_gone running (by rw [here]; nofun)
  rcases (sound other).inside number stays here one apart with gone | ahead
  · exact gone
  have larger := behind.resolve_left stays
  rw [here] at larger
  change ticket < number ∨ ticket = number ∧ one < other at larger
  have smaller : number < ticket ∨ number = ticket ∧ other < one := by
    rcases held with waiting | entered
    · rwa [waiting] at ahead
    · rwa [entered] at ahead
  omega

end

end

/-- In every course of the file steps, in which processes stop and time passes: when a contender whose draw
began behind the publication of a ticket is inside, the owner of that ticket has left or its process has stopped. -/
theorem guard_in_order (process : Nat → Process) (world : GuardWorld) (empty : world.files = [])
    (fresh : ∀ nonce, world.stage nonce = .before) (earlier later : List (Pool.Move Nat GuardWorld))
    (obeys : (contenders process world).Obeys (fun _ before _ => Prompt process before) Surroundings (earlier ++ later))
    (one other ticket : Nat) (holds : Holding ((contenders process world).course earlier).state one ticket)
    (undrawn : Undrawn (((contenders process world).course earlier).state.stage other))
    (enters : Enters process ((contenders process world).course (earlier ++ later)).state other) :
    Gone process ((contenders process world).course (earlier ++ later)).state one := by
  have apart : one ≠ other := by
    rintro rfl
    rcases holds with here | here <;> rw [here] at undrawn <;> exact undrawn
  have compatible : Pool.Compatible (Rely process) (Fair process) :=
    ⟨fun nonce world => Rely.refl nonce world, fun _ => Rely.trans, fun _ _ apart _ _ fair => fair.rely apart.symm⟩
  have keeps : (contenders process world).Keeps (fun _ before _ => Prompt process before) (Rely process) (Fair process)
      (fun nonce result state => (Gone process world nonce → Gone process state nonce) ∧ ∀ value, result = .ok value → True) :=
    fun nonce => guarded_behaves (sound_of_fresh empty fresh) (fresh nonce)
  have around : ∀ nonce before after, Surroundings before after → Rely process nonce before after :=
    fun nonce _ _ around => around.rely nonce
  have implied : ∀ nonce before after, Fair process nonce before after → Queues process one other ticket before after :=
    fun _ _ _ fair => fair.queues apart
  have changed : ∀ before after, Surroundings before after → Queues process one other ticket before after :=
    fun _ _ around => around.queues apart
  obtain ⟨obeyed, obeys⟩ := obeys.append
  obtain ⟨kept, first⟩ := Pool.Keeps.course compatible around keeps Queues.refl Queues.trans implied changed obeyed
  obtain ⟨_, second⟩ := Pool.Keeps.course compatible around kept Queues.refl Queues.trans implied changed obeys
  rw [Pool.course_append] at enters ⊢
  rcases second.waits ⟨holds, .inr undrawn.comes⟩ with gone | ⟨held, still⟩
  · exact gone
  · exact (second.sound (first.sound (sound_of_fresh empty fresh))).gone_of_inside apart held still enters

def sampleDraws : List Nat := List.replicate 7 0

def sampleEntries : List Nat := List.replicate 19 0 ++ List.replicate 16 1

def sampleWaits (world : GuardWorld) : Bool :=
  (match world.stage 0, world.stage 1 with
    | .published 1, .before => true
    | _, _ => false)

theorem guard_in_order_sample : Gone sampleProcess
    ((contenders sampleProcess sampleWorld).course (sampleDraws.map .take ++ sampleEntries.map .take)).state 0 := by
  have obeys : (contenders sampleProcess sampleWorld).Obeys (fun _ before _ => Prompt sampleProcess before) Surroundings
      (sampleDraws.map .take ++ sampleEntries.map .take) := by
    have passed : (contenders sampleProcess sampleWorld).admits sampleTest (sampleDraws ++ sampleEntries) = true := by decide +kernel
    rw [← List.map_append]
    apply Pool.Meets.obeys
    apply Pool.Meets.of_admits _ passed
    intro note before after tested
    exact prompt_of_start sampleProcess (eq_of_beq tested)
  have waits : sampleWaits ((contenders sampleProcess sampleWorld).course (sampleDraws.map .take)).state = true := by decide +kernel
  have inside : sampleInside ((contenders sampleProcess sampleWorld).course (sampleDraws.map .take ++ sampleEntries.map .take)).state 1 =
      true := by decide +kernel
  obtain ⟨entered, running⟩ := Bool.and_eq_true_iff.mp inside
  unfold sampleWaits at waits
  split at waits
  · next published undrawn =>
    refine guard_in_order sampleProcess sampleWorld rfl (fun _ => rfl) _ _ obeys 0 1 1 (.inl published) ?_ ⟨?_, running⟩
    · rw [undrawn]
      exact trivial
    · split at entered
      · next ticket found => exact ⟨ticket, found⟩
      · cases entered
  · cases waits

end Workctx.Locking
