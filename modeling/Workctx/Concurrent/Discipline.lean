import Workctx.Concurrent.Client

/-! Disciplines: an invariant of the shared state, the steps a client may take, and a preorder that
they are in. Clients that keep to a discipline keep to it together. -/

namespace Workctx.Concurrent

structure Discipline (σ ν : Type) where
  allowed : ν → σ → σ → Prop
  sound : σ → Prop
  step : σ → σ → Prop
  stays : σ → σ → Prop
  still : ∀ state, step state state
  related : ∀ {before after}, step before after → stays before after
  trans : ∀ {one two three}, stays one two → stays two three → stays one three
  kept : ∀ {before after}, stays before after → sound before → sound after

namespace Discipline
variable {σ ν ε α β : Type} (discipline : Discipline σ ν)

theorem refl (state : σ) : discipline.stays state state := discipline.related (discipline.still state)

theorem stays.trans {discipline : Discipline σ ν} {one two three : σ} (first : discipline.stays one two)
    (second : discipline.stays two three) : discipline.stays one three := discipline.trans first second

/-- The client keeps to the discipline from a sound state, whatever the others do as well. -/
structure Behaves (client : Client σ ν ε α) (start : σ) (post : α → σ → Prop) : Prop where
  keeps : discipline.sound start → client.Keeps discipline.allowed discipline.stays discipline.step
    (fun result state => discipline.sound state ∧ ∀ value, result = .ok value → post value state) start

def Stable (fact : σ → Prop) : Prop := ∀ before later, discipline.sound before → fact before → discipline.stays before later → fact later

end Discipline

section
variable {σ ν ε δ α β : Type} {discipline : Discipline σ ν} {start : σ}

variable {post : α → σ → Prop}

theorem behaves_ret {value : α}
    (done : ∀ state, discipline.sound start → discipline.stays start state → post value state) :
    discipline.Behaves (.ret value : Client σ ν ε α) start post := by
  constructor
  intro sound state stays
  refine ⟨discipline.kept stays sound, ?_⟩
  intro result same
  cases same
  exact done state sound stays

theorem behaves_raise {error : ε} : discipline.Behaves (.raise error : Client σ ν ε α) start post := by
  constructor
  intro sound state stays
  refine ⟨discipline.kept stays sound, ?_⟩
  intro value same
  cases same

theorem behaves_bind {mid : β → σ → Prop} {first : Client σ ν ε β} {next : β → Client σ ν ε α}
    (one : discipline.Behaves first start mid)
    (two : ∀ value state, discipline.sound state → mid value state → discipline.Behaves (next value) state post) :
    discipline.Behaves (first >>= next) start post := by
  constructor
  intro sound
  apply Client.Keeps.bind discipline.refl (one.keeps sound)
  · intro value state reached
    exact (two value state reached.1 (reached.2 value rfl)).keeps reached.1
  · intro error state reached
    refine ⟨reached.1, ?_⟩
    intro value same
    cases same

theorem behaves_handle {mid : α → σ → Prop} {body : Client σ ν ε α} {handler : ε → Client σ ν δ α}
    (one : discipline.Behaves body start mid) (returned : ∀ value state, mid value state → post value state)
    (failed : ∀ error state, discipline.sound state → discipline.Behaves (handler error) state post) :
    discipline.Behaves (body.handle handler) start post := by
  constructor
  intro sound
  apply Client.Keeps.handle discipline.refl (one.keeps sound)
  · intro value state reached
    refine ⟨reached.1, ?_⟩
    intro result same
    cases same
    exact returned value state (reached.2 value rfl)
  · intro error state reached
    exact (failed error state reached.1).keeps reached.1

theorem behaves_observe {note : ν} {view : σ → α}
    (seen : ∀ state later, discipline.sound start → discipline.stays start state → discipline.stays state later →
      post (view state) later) : discipline.Behaves (Client.observe note view : Client σ ν ε α) start post := by
  constructor
  intro sound state stays _
  refine ⟨discipline.still state, ?_⟩
  intro later further
  refine ⟨discipline.kept further (discipline.kept stays sound), ?_⟩
  intro value same
  cases same
  exact seen state later sound stays further

theorem behaves_look {note : ν} {view : σ → α} :
    discipline.Behaves (Client.observe note view : Client σ ν ε α) start fun _ state => discipline.stays start state :=
  behaves_observe fun _ _ _ stays further => discipline.trans stays further

theorem behaves_ensure {test : Bool} {error : ε} :
    discipline.Behaves (Client.ensure test error : Client σ ν ε Unit) start
      fun _ state => test = true ∧ discipline.stays start state := by
  cases test with
  | true => exact behaves_ret fun _ _ stays => ⟨rfl, stays⟩
  | false => exact behaves_raise

theorem behaves_ofExcept {result : Except ε α} :
    discipline.Behaves (Client.ofExcept result : Client σ ν ε α) start
      fun value state => result = .ok value ∧ discipline.stays start state := by
  cases result with
  | ok value => exact behaves_ret fun _ _ stays => ⟨rfl, stays⟩
  | error error => exact behaves_raise

theorem behaves_transact {note : ν} {action : σ → Except ε (α × σ)}
    (done : ∀ state value after later, discipline.sound state → discipline.stays start state → action state = .ok (value, after) →
      discipline.allowed note state after →
        discipline.step state after ∧ (discipline.stays after later → post value later)) :
    discipline.Behaves (Client.transact note action : Client σ ν ε α) start post := by
  constructor
  intro sound state stays careful
  dsimp only at careful ⊢
  have there := discipline.kept stays sound
  cases found : action state with
  | error error => exact ⟨discipline.still state, behaves_raise.keeps there⟩
  | ok result =>
    obtain ⟨value, after⟩ := result
    rw [found] at careful
    refine ⟨(done state value after after there stays found careful).1, ?_⟩
    intro later further
    have reached := discipline.related (done state value after after there stays found careful).1
    refine ⟨discipline.kept further (discipline.kept reached there), ?_⟩
    intro result same
    cases same
    exact (done state value after later there stays found careful).2 further

theorem behaves_act {note : ν} {effect : σ → σ} {next : σ → Client σ ν ε α}
    (done : ∀ state, discipline.sound state → discipline.stays start state → discipline.allowed note state (effect state) →
      discipline.step state (effect state) ∧ discipline.Behaves (next state) (effect state) post) :
    discipline.Behaves (.act note effect next) start post := by
  constructor
  intro sound state stays careful
  have there := discipline.kept stays sound
  obtain ⟨step, later⟩ := done state there stays careful
  exact ⟨step, later.keeps (discipline.kept (discipline.related step) there)⟩

theorem Discipline.Behaves.weaken {client : Client σ ν ε α} {other : α → σ → Prop} (behaves : discipline.Behaves client start post)
    (weaker : ∀ value state, discipline.sound state → post value state → other value state) :
    discipline.Behaves client start other := by
  constructor
  intro sound
  apply Client.Keeps.weaken (behaves.keeps sound)
  intro result state reached
  exact ⟨reached.1, fun value same => weaker value state reached.1 (reached.2 value same)⟩

theorem behaves_inside {client : Client σ ν ε α}
    (behaves : discipline.sound start → discipline.Behaves client start post) : discipline.Behaves client start post :=
  ⟨fun sound => (behaves sound).keeps sound⟩

end

section
variable {ι σ ν ε α : Type} [DecidableEq ι] {discipline : Discipline σ ν} {pool : Pool ι σ ν ε α} {post : ι → α → σ → Prop}
  {schedule : List ι}

omit [DecidableEq ι] in
theorem Discipline.compatible : Pool.Compatible (fun _ : ι => discipline.stays) fun _ => discipline.step :=
  ⟨fun _ => discipline.refl, fun _ _ _ _ => discipline.trans, fun _ _ _ _ _ step => discipline.related step⟩

omit [DecidableEq ι] in
theorem Discipline.keeps (sound : discipline.sound pool.state)
    (behaves : ∀ i, discipline.Behaves (pool.clients i) pool.state (post i)) :
    pool.Keeps discipline.allowed (fun _ => discipline.stays) (fun _ => discipline.step)
      fun i result state => discipline.sound state ∧ ∀ value, result = .ok value → post i value state :=
  fun i => (behaves i).keeps sound

theorem Discipline.run (sound : discipline.sound pool.state) (behaves : ∀ i, discipline.Behaves (pool.clients i) pool.state (post i))
    (meets : pool.Meets discipline.allowed schedule) : discipline.stays pool.state (pool.run schedule).state :=
  (discipline.keeps sound behaves).relates discipline.compatible discipline.refl discipline.trans
    (fun _ _ _ step => discipline.related step) meets

theorem Discipline.last (sound : discipline.sound pool.state) (behaves : ∀ i, discipline.Behaves (pool.clients i) pool.state (post i))
    {i : ι} (meets : pool.Meets discipline.allowed (schedule ++ [i])) :
    discipline.step (pool.run schedule).state (pool.run (schedule ++ [i])).state := by
  obtain ⟨early, last, _⟩ := meets.append
  have kept := (discipline.keeps sound behaves).run discipline.compatible early
  rw [Pool.run_append]
  rcases (kept.advance discipline.compatible last).2 with same | step
  · change discipline.step (pool.run schedule).state ((pool.run schedule).advance i).state
    rw [same]
    exact discipline.still _
  · exact step

end
end Workctx.Concurrent
