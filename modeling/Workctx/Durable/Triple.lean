import Workctx.Durable.Program

/-! Rules for programs that can be stopped. A triple has one assertion for a normal
return and one for every store an interruption can leave behind. -/

namespace Workctx.Durable
variable {σ τ ε α β : Type}

/-- An interrupted run leaves `cut`. A total triple also says that the program raises
nothing on its own: it fails only when the environment disturbs it. -/
def Accepts (total : Prop) (post : α → σ → Prop) (cut : σ → Prop) (faults : List (Fault τ ε)) :
    Outcome σ τ ε α → Prop
  | .ok value store _ => post value store
  | .error _ store _ => cut store ∧ (total → faults ≠ [])
  | .crash store => cut store

theorem Accepts.after {total other : Prop} {post : α → σ → Prop} {cut : σ → Prop} {faults rest : List (Fault τ ε)}
    {outcome : Outcome σ τ ε α} (accepted : Accepts other post cut rest outcome)
    (disturbed : total → faults ≠ []) : Accepts total post cut faults outcome := by
  cases outcome with
  | ok value store more => exact accepted
  | error error store more => exact ⟨accepted.1, disturbed⟩
  | crash store => exact accepted

def Triple (total : Prop) (pre : σ → Prop) (program : Program σ τ ε α) (post : α → σ → Prop)
    (cut : σ → Prop) : Prop :=
  ∀ store faults, pre store → Accepts total post cut faults (program.run store faults)

namespace Triple
variable {total : Prop} {pre pre' : σ → Prop} {post post' : α → σ → Prop} {cut cut' : σ → Prop}

variable {program : Program σ τ ε α} {last : Unit → σ → Prop} {body : Program σ τ ε α} {middle : σ → Prop}

/-- A total triple guarantees the undisturbed run: it returns, and returns `post`. -/
theorem completes (triple : Triple True pre program post cut) {store : σ}
    (holds : pre store) : ∃ value after, program.run store [] = .ok value after [] ∧ post value after := by
  have accepted := triple store [] holds
  rcases program.run_undisturbed store with ⟨value, after, ran⟩ | ⟨error, after, ran⟩
  · rw [ran] at accepted
    exact ⟨value, after, ran, accepted⟩
  · rw [ran] at accepted
    exact absurd rfl (accepted.2 trivial)

theorem weaken (triple : Triple total pre program post cut)
    (before : ∀ store, pre' store → pre store) (after : ∀ value store, post value store → post' value store)
    (stopped : ∀ store, cut store → cut' store) : Triple total pre' program post' cut' := by
  intro store faults holds
  have accepted := triple store faults (before store holds)
  cases ran : program.run store faults with
  | ok value later rest => rw [ran] at accepted; exact after _ _ accepted
  | error error later rest => rw [ran] at accepted; exact ⟨stopped _ accepted.1, accepted.2⟩
  | crash later => rw [ran] at accepted; exact stopped _ accepted

theorem strengthen (triple : Triple total pre program post cut) (before : ∀ store, pre' store → pre store) :
    Triple total pre' program post cut := triple.weaken before (fun _ _ => id) fun _ => id

theorem ensuring (triple : Triple total pre program post cut) (after : ∀ value store, post value store → post' value store) :
    Triple total pre program post' cut := triple.weaken (fun _ => id) after fun _ => id

theorem forget {later : σ → Prop} {found : α → σ → Prop}
    (triple : Triple total pre program (fun value store => later store ∧ found value store) cut) :
    Triple total pre program (fun _ => later) cut := triple.ensuring fun _ _ both => both.1

theorem stopping (triple : Triple total pre program post cut) (stopped : ∀ store, cut store → cut' store) :
    Triple total pre program post cut' := triple.weaken (fun _ => id) (fun _ _ => id) stopped

theorem of_each
    (each : ∀ start, pre start → Triple total (fun store => store = start) program post cut) :
    Triple total pre program post cut := fun store faults holds => each store holds store faults rfl

theorem ret {value : α} (holds : ∀ store, pre store → post value store) :
    Triple total pre (.ret value : Program σ τ ε α) post cut := fun store _ start => holds store start

theorem raise {error : ε} (holds : ∀ store, pre store → cut store ∧ ¬total) :
    Triple total pre (.raise error : Program σ τ ε α) post cut :=
  fun store _ start => ⟨(holds store start).1, fun must => absurd must (holds store start).2⟩

theorem bind {middle : α → σ → Prop} {last : β → σ → Prop} {first : Program σ τ ε α}
    {next : α → Program σ τ ε β} (one : Triple total pre first middle cut)
    (two : ∀ value, Triple total (middle value) (next value) last cut) :
    Triple total pre (first.bind next) last cut := by
  intro store faults holds
  have accepted := one store faults holds
  rw [Program.run_bind]
  cases ran : first.run store faults with
  | error error after rest => rw [ran] at accepted; exact accepted
  | crash after => rw [ran] at accepted; exact accepted
  | ok value after rest =>
    rw [ran] at accepted
    have later := two value after rest accepted
    show Accepts total last cut faults ((next value).run after rest)
    cases finish : (next value).run after rest with
    | ok value later' rest' => rw [finish] at later; exact later
    | crash later' => rw [finish] at later; exact later
    | error error later' rest' =>
      rw [finish] at later
      refine ⟨later.1, fun must empty => later.2 must ?_⟩
      subst empty
      rcases first.run_undisturbed store with ⟨_, _, same⟩ | ⟨_, _, same⟩
      · rw [ran] at same; cases same; rfl
      · rw [ran] at same; cases same

theorem observe {view : σ → α} (holds : ∀ store, pre store → post (view store) store) :
    Triple total pre (Program.observe view : Program σ τ ε α) post cut := fun store _ start => holds store start

theorem check {view : σ → Except ε α}
    (passed : ∀ store, pre store → ∀ value, view store = .ok value → post value store)
    (refused : ∀ store, pre store → ∀ error, view store = .error error → cut store ∧ ¬total) :
    Triple total pre (Program.check view : Program σ τ ε α) post cut := by
  intro store faults start
  rw [Program.check, Program.run]
  cases seen : view store with
  | ok value => exact passed store start value seen
  | error error =>
    obtain ⟨stopped, partial_⟩ := refused store start error seen
    exact ⟨stopped, fun must => absurd must partial_⟩

theorem check_keep {view : σ → Except ε α} (stopped : ∀ store, pre store → cut store)
    (passes : total → ∀ store, pre store → ∃ value, view store = .ok value) :
    Triple total pre (Program.check view : Program σ τ ε α) (fun value store => pre store ∧ view store = .ok value)
      cut := by
  refine check (fun store holds value seen => ⟨holds, seen⟩) fun store holds error seen => ⟨stopped store holds, ?_⟩
  intro must
  obtain ⟨value, found⟩ := passes must store holds
  rw [seen] at found
  cases found

theorem ensure_keep {test : Bool} {error : ε} (stopped : ∀ store, pre store → cut store)
    (passes : total → ∀ store, pre store → test = true) :
    Triple total pre (Program.ensure test error : Program σ τ ε Unit)
      (fun _ store => pre store ∧ test = true) cut := by
  cases test with
  | true => exact ret fun store holds => ⟨holds, rfl⟩
  | false => exact raise fun store holds => ⟨stopped store holds, fun must => absurd (passes must store holds) (by decide)⟩

theorem perform {durable : Step σ τ}
    (holds : ∀ store, pre store → last () (durable.effect store) ∧ cut store ∧
      cut (durable.effect store) ∧ ∀ how, cut (durable.torn how store)) :
    Triple total pre (Program.perform durable : Program σ τ ε Unit) last cut := by
  intro store faults start
  obtain ⟨done, before, after, torn⟩ := holds store start
  have land : ∀ progress : Progress τ, cut (progress.land durable store) := by
    intro progress
    cases progress with
    | untouched => exact before
    | torn how => exact torn how
    | landed => exact after
  match faults with
  | [] => exact done
  | .run :: rest => exact done
  | .crash progress :: rest => exact land progress
  | .fail error progress :: rest => exact ⟨land progress, fun _ => by simp⟩

theorem ensure {test : Bool} {error : ε}
    (passed : ∀ store, pre store → test = true → last () store)
    (refused : ∀ store, pre store → test = false → cut store ∧ ¬total) :
    Triple total pre (Program.ensure test error : Program σ τ ε Unit) last cut := by
  cases test with
  | true => exact ret fun store holds => passed store holds rfl
  | false => exact raise fun store holds => refused store holds rfl

theorem handle {handler : ε → Program σ τ ε α}
    (one : Triple total pre body post middle) (stopped : ∀ store, middle store → cut store)
    (two : ∀ error, Triple False middle (handler error) post cut) :
    Triple total pre (body.handle handler) post cut := by
  intro store faults holds
  have accepted := one store faults holds
  rw [Program.run_handle]
  cases ran : body.run store faults with
  | ok value after rest => rw [ran] at accepted; exact accepted
  | crash after => rw [ran] at accepted; exact stopped _ accepted
  | error error after rest =>
    rw [ran] at accepted
    have later := two error after rest accepted.1
    exact later.after accepted.2

theorem attempt {next : α → Program σ τ ε β} {failed : ε → Program σ τ ε β}
    {last : β → σ → Prop} (one : Triple total pre body post middle) (stopped : ∀ store, middle store → cut store)
    (normal : ∀ value, Triple total (post value) (next value) last cut)
    (caught : ∀ error, Triple False middle (failed error) last cut) :
    Triple total pre (body.attempt next failed) last cut := by
  intro store faults holds
  have accepted := one store faults holds
  rw [Program.run_attempt]
  cases ran : body.run store faults with
  | crash after => rw [ran] at accepted; exact stopped _ accepted
  | error error after rest =>
    rw [ran] at accepted
    exact (caught error after rest accepted.1).after accepted.2
  | ok value after rest =>
    have whole : Triple total pre (body.bind next) last cut :=
      bind (weaken one (fun _ start => start) (fun _ _ => id) stopped) normal
    replace whole := whole store faults holds
    rw [Program.run_bind, ran] at whole
    exact whole

theorem cleanup {last : Program σ τ ε Unit}
    {done : α → σ → Prop} (one : Triple total pre body done middle)
    (stopped : ∀ store, middle store → cut store)
    (normal : ∀ value, Triple total (done value) last (fun _ => post value) cut)
    (failed : Triple False middle last (fun _ => cut) cut) :
    Triple total pre (body.cleanup last) post cut := by
  intro store faults holds
  have accepted := one store faults holds
  rw [Program.run_cleanup]
  cases ran : body.run store faults with
  | crash after => rw [ran] at accepted; exact stopped _ accepted
  | ok value after rest =>
    have whole : Triple total pre (body.bind fun value => last.bind fun _ => .ret value) post cut :=
      bind (weaken one (fun _ start => start) (fun _ _ => id) stopped)
        fun value => bind (normal value) fun _ => ret fun _ => id
    replace whole := whole store faults holds
    rw [Program.run_bind, ran] at whole
    exact whole
  | error error after rest =>
    rw [ran] at accepted
    have raised : Triple False middle (last.bind fun _ => (.raise error : Program σ τ ε α)) post cut :=
      bind failed fun _ => raise fun store start => ⟨start, id⟩
    have later := raised after rest accepted.1
    exact later.after accepted.2

theorem forEach {body : α → Program σ τ ε Unit} {inv : List α → List α → σ → Prop}
    (items : List α)
    (each : ∀ before item after, items = before ++ item :: after →
      Triple total (inv before (item :: after)) (body item)
        (fun _ => inv (before ++ [item]) after) cut) :
    Triple total (inv [] items) (Program.forEach body items) (fun _ => inv items []) cut := by
  have tail : ∀ after before, items = before ++ after →
      Triple total (inv before after) (Program.forEach body after) (fun _ => inv items []) cut := by
    intro after
    induction after with
    | nil =>
      intro before split
      rw [List.append_nil] at split
      subst split
      exact ret fun _ => id
    | cons item rest ih =>
      intro before split
      exact bind (each before item rest split) fun _ => ih (before ++ [item]) (by simp [split])
  exact tail items [] rfl

theorem forEach_keep {body : α → Program σ τ ε Unit} {inv : σ → Prop} (items : List α)
    (each : ∀ item ∈ items, Triple total inv (body item) (fun _ => inv) cut) :
    Triple total inv (Program.forEach body items) (fun _ => inv) cut := by
  let same (_ _ : List α) (store : σ) : Prop := inv store
  have loop : Triple total (same [] items) (Program.forEach body items) (fun _ => same items []) cut :=
    forEach items fun before item after split => each item (by rw [split]; simp)
  exact loop

theorem forEach_check {view : α → σ → Except ε Unit} (items : List α) (stopped : ∀ store, pre store → cut store)
    (passes : total → ∀ store, pre store → ∀ item ∈ items, view item store = .ok ()) :
    Triple total pre (Program.forEach (fun item => Program.check (view item)) items : Program σ τ ε Unit)
      (fun _ store => pre store ∧ ∀ item ∈ items, view item store = .ok ()) cut := by
  let inv (before _ : List α) (store : σ) : Prop := pre store ∧ ∀ item ∈ before, view item store = .ok ()
  have loop : Triple total (inv [] items)
        (Program.forEach (fun item => Program.check (view item)) items : Program σ τ ε Unit)
      (fun _ => inv items []) cut := by
    refine forEach items fun before item after split => ?_
    refine (check_keep (fun store holds => stopped store holds.1) ?_).ensuring ?_
    · intro must store holds
      exact ⟨(), passes must store holds.1 item (by rw [split]; simp)⟩
    · intro value store kept
      refine ⟨kept.1.1, fun other member => ?_⟩
      rcases List.mem_append.mp member with earlier | same
      · exact kept.1.2 other earlier
      · rw [List.mem_singleton.mp same]
        exact kept.2
  exact loop.strengthen (fun _ holds => ⟨holds, by simp⟩)

theorem collect {body : α → Program σ τ ε β} {inv : List α → List β → σ → Prop} (items : List α)
    (each : ∀ before item after results, items = before ++ item :: after →
      Triple total (inv before results) (body item)
        (fun result => inv (before ++ [item]) (results ++ [result])) cut) :
    Triple total (inv [] []) (Program.collect body items) (inv items) cut := by
  have tail : ∀ after before results, items = before ++ after →
      Triple total (inv before results) (Program.collect body after)
        (fun more => inv items (results ++ more)) cut := by
    intro after
    induction after with
    | nil =>
      intro before results split
      rw [List.append_nil] at split
      subst split
      exact ret fun _ start => by simpa using start
    | cons item rest ih =>
      intro before results split
      refine bind (each before item rest results split) fun first => ?_
      refine bind (ih (before ++ [item]) (results ++ [first]) (by simp [split])) fun more => ?_
      exact ret fun _ start => by simpa using start
  simpa using tail items [] [] rfl

/-- Once an attempt was disturbed, later attempts start from an arbitrary cut state, so
they are only required not to break it. -/
theorem retry {transient : ε → Bool} {exhausted : ε} {guard action : Program σ τ ε Unit}
    {ready : σ → Prop} {attempts : Nat} (positive : 0 < attempts)
    (guarded : Triple total pre guard (fun _ => ready) cut)
    (acted : Triple total ready action last cut)
    (again : Triple False cut (guard.bind fun _ => action) last cut) :
    Triple total pre (Program.retry transient exhausted guard action attempts) last cut := by
  have later : ∀ attempts, Triple False cut (Program.retry transient exhausted guard action attempts) last cut := by
    intro attempts
    induction attempts with
    | zero => exact raise fun _ start => ⟨start, id⟩
    | succ attempts ih =>
      intro store faults holds
      have accepted := again store faults holds
      rw [Program.run_bind] at accepted
      rw [Program.retry, Program.run_bind]
      cases ran : guard.run store faults with
      | error error after rest => rw [ran] at accepted; exact accepted
      | crash after => rw [ran] at accepted; exact accepted
      | ok value after rest =>
        rw [ran] at accepted
        change Accepts False last cut faults (action.run after rest) at accepted
        show Accepts False last cut faults ((action.handle _).run after rest)
        rw [Program.run_handle]
        cases acts : action.run after rest with
        | ok value later' rest' => rw [acts] at accepted; exact accepted
        | crash later' => rw [acts] at accepted; exact accepted
        | error error later' rest' =>
          rw [acts] at accepted
          by_cases passing : transient error = true
          · by_cases none : attempts = 0
            · simp only [passing, none, ↓reduceIte]
              exact ⟨accepted.1, False.elim⟩
            · simp only [passing, none, ↓reduceIte]
              exact (ih later' rest' accepted.1).after False.elim
          · simp only [passing, Bool.false_eq_true, ↓reduceIte]
            exact ⟨accepted.1, False.elim⟩
  obtain ⟨more, rfl⟩ : ∃ more, attempts = more + 1 := ⟨attempts - 1, by omega⟩
  refine bind guarded fun _ => handle acted (fun _ => id) fun error => ?_
  by_cases passing : transient error = true
  · by_cases none : more = 0
    · simp only [passing, none, ↓reduceIte]
      exact raise fun _ start => ⟨start, id⟩
    · simp only [passing, none, ↓reduceIte]
      exact later more
  · simp only [passing, Bool.false_eq_true, ↓reduceIte]
    exact raise fun _ start => ⟨start, id⟩

theorem run_leaves (triple : Triple total pre program post cut)
    (finished : ∀ value store, post value store → cut store) {store : σ} (holds : pre store)
    (faults : List (Fault τ ε)) : cut (program.run store faults).store := by
  have accepted := triple store faults holds
  cases ran : program.run store faults with
  | ok value later rest => rw [ran] at accepted; exact finished _ _ accepted
  | error error later rest => rw [ran] at accepted; exact accepted.1
  | crash later => rw [ran] at accepted; exact accepted

end Triple
end Workctx.Durable
