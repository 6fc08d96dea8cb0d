import Workctx.Durable.Triple

/-! Runs counted in durable steps: where a program without handlers stands when its next
disturbance comes. -/

namespace Workctx.Durable
variable {σ τ ε α β : Type}

def Fault.disturbs : Fault τ ε → Bool
  | .run => false
  | _ => true

def Fault.landed : Fault τ ε → Bool
  | .run => true
  | .crash .landed => true
  | .fail _ .landed => true
  | _ => false

def Fault.passing (transient : ε → Bool) : Fault τ ε → Bool
  | .fail error _ => transient error
  | _ => false

/-- One step is disturbed; the steps before and behind it are not. -/
def faultAt (position : Nat) (fault : Fault τ ε) : List (Fault τ ε) := List.replicate position .run ++ [fault]

theorem faultAt_add (one two : Nat) (fault : Fault τ ε) :
    faultAt (one + two) fault = List.replicate one .run ++ faultAt two fault := by
  unfold faultAt
  rw [← List.replicate_append_replicate, List.append_assoc]

/-- The run ended without a value after its last fault. -/
def Outcome.Stopped : Outcome σ τ ε α → Prop
  | .ok .. => False
  | .error _ _ rest => rest = []
  | .crash _ => True

/-- The undisturbed run takes this many steps to its value and store, and a fault at any of
them keeps the program from its value. -/
structure Paced (program : Program σ τ ε α) (store : σ) (steps : Nat) (value : α) (after : σ) : Prop where
  calm : ∀ rest, program.run store (List.replicate steps .run ++ rest) = .ok value after rest
  broken : ∀ position < steps, ∀ fault : Fault τ ε, fault.disturbs = true →
    (program.run store (faultAt position fault)).Stopped

namespace Paced
variable {store after last : σ} {steps more : Nat} {value : α} {result : β}

theorem ret (value : α) (store : σ) : Paced (.ret value : Program σ τ ε α) store 0 value store :=
  ⟨fun _ => rfl, fun _ below => absurd below (Nat.not_lt_zero _)⟩

theorem perform (durable : Step σ τ) (store : σ) :
    Paced (Program.perform durable : Program σ τ ε Unit) store 1 () (durable.effect store) := by
  refine ⟨fun _ => rfl, ?_⟩
  intro position below fault disturbs
  have first : position = 0 := by omega
  subst first
  cases fault with
  | run => cases disturbs
  | crash progress => trivial
  | fail error progress => exact rfl

theorem check {view : σ → Except ε α} (passes : view store = .ok value) :
    Paced (Program.check view : Program σ τ ε α) store 0 value store := by
  refine ⟨?_, fun _ below => absurd below (Nat.not_lt_zero _)⟩
  intro rest
  rw [Program.check, Program.run_read, passes]
  rfl

theorem observe (view : σ → α) (store : σ) :
    Paced (Program.observe view : Program σ τ ε α) store 0 (view store) store :=
  ⟨fun _ => rfl, fun _ below => absurd below (Nat.not_lt_zero _)⟩

theorem ensure {test : Bool} (error : ε) (passes : test = true) :
    Paced (Program.ensure test error : Program σ τ ε Unit) store 0 () store := by
  rw [Program.ensure, if_pos passes]
  exact ret () store

variable {first : Program σ τ ε α} {next : α → Program σ τ ε β}

section
variable (one : Paced first store steps value after)
include one

theorem bind
    (two : Paced (next value) after more result last) : Paced (first.bind next) store (steps + more) result last := by
  constructor
  · intro rest
    rw [Program.run_bind, ← List.replicate_append_replicate, List.append_assoc, one.calm]
    exact two.calm rest
  · intro position below fault disturbs
    rw [Program.run_bind]
    by_cases early : position < steps
    · have stopped := one.broken position early fault disturbs
      cases ran : first.run store (faultAt position fault) with
      | ok value after rest => rw [ran] at stopped; exact stopped.elim
      | error error after rest => rw [ran] at stopped; exact stopped
      | crash after => trivial
    · obtain ⟨later, rfl⟩ : ∃ later, position = steps + later := ⟨position - steps, by omega⟩
      rw [faultAt_add, one.calm]
      exact two.broken later (by omega) fault disturbs

theorem store_before
    {position : Nat} (early : position < steps) {fault : Fault τ ε} (disturbs : fault.disturbs = true) :
    ((first.bind next).run store (faultAt position fault)).store =
      (first.run store (faultAt position fault)).store := by
  have stopped := one.broken position early fault disturbs
  rw [Program.run_bind]
  cases ran : first.run store (faultAt position fault) with
  | ok value after rest => rw [ran] at stopped; exact stopped.elim
  | error error after rest => rfl
  | crash after => rfl

theorem run_behind
    (position : Nat) (fault : Fault τ ε) :
    (first.bind next).run store (faultAt (steps + position) fault) = (next value).run after (faultAt position fault) := by
  rw [Program.run_bind, faultAt_add, one.calm]

end

theorem reaches {program : Program σ τ ε α} {total : Prop} {pre cut : σ → Prop} {post : α → σ → Prop}
    (paced : Paced program store steps value after) (triple : Triple total pre program post cut) (holds : pre store) :
    post value after := by
  have accepted := triple store (List.replicate steps .run ++ []) holds
  rwa [paced.calm []] at accepted

theorem forEach_check {view : α → σ → Except ε Unit} (items : List α) (passes : ∀ item ∈ items, view item store = .ok ()) :
    Paced (Program.forEach (fun item => Program.check (view item)) items : Program σ τ ε Unit) store 0 () store := by
  induction items with
  | nil => exact ret () store
  | cons item rest ih =>
    have others := ih fun other member => passes other (List.mem_cons_of_mem _ member)
    have joined : Paced ((Program.check (view item)).bind fun _ =>
        (Program.forEach (fun item => Program.check (view item)) rest : Program σ τ ε Unit)) store (0 + 0) () store :=
      bind (check (passes item List.mem_cons_self)) others
    exact joined

end Paced

def sumSteps (counts : List Nat) : Nat := counts.foldr (fun count sum => count + sum) 0

def Takes (program : Program σ τ ε α) (store : σ) (steps : Nat) : Prop :=
  ∃ value after, Paced program store steps value after

namespace Takes
variable {store : σ} {steps more : Nat}

theorem perform (durable : Step σ τ) : Takes (Program.perform durable : Program σ τ ε Unit) store 1 :=
  ⟨(), durable.effect store, .perform durable store⟩

theorem check {view : σ → Except ε α} {value : α} (passes : view store = .ok value) :
    Takes (Program.check view : Program σ τ ε α) store 0 := ⟨value, store, .check passes⟩

theorem ret (value : α) : Takes (.ret value : Program σ τ ε α) store 0 := ⟨value, store, .ret value store⟩

variable {next : α → Program σ τ ε β}

theorem paced_bind {first : Program σ τ ε α} {value : α} {after : σ}
    (one : Paced first store steps value after) (rest : Takes (next value) after more) :
    Takes (first.bind next) store (steps + more) := by
  obtain ⟨result, last, paced⟩ := rest
  exact ⟨result, last, one.bind paced⟩

theorem check_bind {view : σ → Except ε α} {value : α} (passes : view store = .ok value)
    (rest : Takes (next value) store steps) : Takes ((Program.check view).bind next) store steps := by
  have whole := paced_bind (Paced.check passes) rest
  rwa [Nat.zero_add] at whole

theorem ensure_bind {test : Bool} {error : ε} {next : Unit → Program σ τ ε β} (passes : test = true)
    (rest : Takes (next ()) store steps) : Takes ((Program.ensure test error).bind next) store steps := by
  have whole := paced_bind (Paced.ensure error passes) rest
  rwa [Nat.zero_add] at whole

theorem observe_bind {view : σ → α} (rest : Takes (next (view store)) store steps) :
    Takes ((Program.observe view).bind next) store steps := by
  have whole := paced_bind (Paced.observe view store) rest
  rwa [Nat.zero_add] at whole

theorem bind {first : Program σ τ ε α} {total : Prop} {pre cut : σ → Prop}
    {middle : α → σ → Prop} (one : Takes first store steps) (reached : Triple total pre first middle cut) (holds : pre store)
    (two : ∀ value after, middle value after → Takes (next value) after more) :
    Takes (first.bind next) store (steps + more) := by
  obtain ⟨value, after, paced⟩ := one
  obtain ⟨result, last, rest⟩ := two value after (paced.reaches reached holds)
  exact ⟨result, last, paced.bind rest⟩

theorem collect {body : α → Program σ τ ε β} {pace : α → Nat} {inv : List α → List β → σ → Prop} {total : Prop}
    {cut : σ → Prop} (items : List α) (start : inv [] [] store)
    (reached : ∀ before item after results, items = before ++ item :: after →
      Triple total (inv before results) (body item) (fun result => inv (before ++ [item]) (results ++ [result])) cut)
    (each : ∀ before item after results store, items = before ++ item :: after → inv before results store →
      Takes (body item) store (pace item)) :
    Takes (Program.collect body items) store (sumSteps (items.map pace)) := by
  have tail : ∀ after before results store, items = before ++ after → inv before results store →
      Takes (Program.collect body after) store (sumSteps (after.map pace)) := by
    intro after
    induction after with
    | nil => intro _ _ store _ _; exact ⟨[], store, .ret [] store⟩
    | cons item rest ih =>
      intro before results store split holds
      refine bind (each before item rest results store split holds) (reached before item rest results split) holds ?_
      intro result later now
      obtain ⟨others, last, paced⟩ := ih (before ++ [item]) (results ++ [result]) later (by simp [split]) now
      have joined : Paced ((Program.collect body rest).bind fun others => .ret (result :: others)) later
          (sumSteps (rest.map pace) + 0) (result :: others) last := paced.bind (.ret _ _)
      exact ⟨result :: others, last, joined⟩
  exact tail items [] [] store rfl start

end Takes
end Workctx.Durable
