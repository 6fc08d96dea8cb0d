import Mathlib.Logic.Function.Basic

/-! Clients of a shared state. A client is a tree of atomic actions, each with a note of what it
is; the clients of a pool take their actions in any order. -/

namespace Workctx.Concurrent

inductive Client (σ ν ε α : Type) where
  | ret (value : α)
  | raise (error : ε)
  | act (note : ν) (effect : σ → σ) (next : σ → Client σ ν ε α)

namespace Client
variable {σ ν ε δ α β : Type}

def bind : Client σ ν ε α → (α → Client σ ν ε β) → Client σ ν ε β
  | .ret value, next => next value
  | .raise error, _ => .raise error
  | .act note effect first, next => .act note effect fun state => (first state).bind next

instance : Monad (Client σ ν ε) where
  pure := .ret
  bind := bind

def handle : Client σ ν ε α → (ε → Client σ ν δ α) → Client σ ν δ α
  | .ret value, _ => .ret value
  | .raise error, handler => handler error
  | .act note effect first, handler => .act note effect fun state => (first state).handle handler

/-- The value of an observation of the state at this moment. -/
def observe (note : ν) (view : σ → α) : Client σ ν ε α := .act note id fun state => .ret (view state)

/-- An atomic action that may be refused; a refusal changes nothing. -/
def transact (note : ν) (action : σ → Except ε (α × σ)) : Client σ ν ε α :=
  .act note (fun state => match action state with
    | .ok (_, after) => after
    | .error _ => state) fun state => match action state with
    | .ok (value, _) => .ret value
    | .error error => .raise error

def ofExcept : Except ε α → Client σ ν ε α
  | .ok value => .ret value
  | .error error => .raise error

def ensure (test : Bool) (error : ε) : Client σ ν ε Unit := if test then .ret () else .raise error

@[simp] theorem bind_eq (first : Client σ ν ε α) (next : α → Client σ ν ε β) : first >>= next = first.bind next := rfl

@[simp] theorem pure_eq (value : α) : (pure value : Client σ ν ε α) = .ret value := rfl

/-! What a client keeps: from every state the others may have made of the last one it knows, its
next action is one it guarantees. -/

section
variable (allowed : ν → σ → σ → Prop) (rely guar : σ → σ → Prop)

/-- The condition on an action is assumed of every action that is taken. -/
def Keeps (post : Except ε α → σ → Prop) : Client σ ν ε α → σ → Prop
  | .ret value, known => ∀ state, rely known state → post (.ok value) state
  | .raise error, known => ∀ state, rely known state → post (.error error) state
  | .act note effect next, known => ∀ state, rely known state → allowed note state (effect state) →
      guar state (effect state) ∧ (next state).Keeps post (effect state)

end

section
variable {allowed : ν → σ → σ → Prop} {rely guar : σ → σ → Prop} {post other : Except ε α → σ → Prop}
  {mid : Except ε β → σ → Prop} {known state : σ}

theorem Keeps.later (trans : ∀ {one two three}, rely one two → rely two three → rely one three) {client : Client σ ν ε α}
    (keeps : client.Keeps allowed rely guar post known) (step : rely known state) :
    client.Keeps allowed rely guar post state := by
  cases client with
  | ret value => exact fun later further => keeps later (trans step further)
  | raise error => exact fun later further => keeps later (trans step further)
  | act note effect next => exact fun later further => keeps later (trans step further)

theorem Keeps.weaken {client : Client σ ν ε α} (keeps : client.Keeps allowed rely guar post known)
    (weaker : ∀ result state, post result state → other result state) : client.Keeps allowed rely guar other known := by
  induction client generalizing known with
  | ret value => exact fun state step => weaker _ _ (keeps state step)
  | raise error => exact fun state step => weaker _ _ (keeps state step)
  | act note effect next ih =>
    intro state step meets
    obtain ⟨guaranteed, later⟩ := keeps state step meets
    exact ⟨guaranteed, ih state later⟩

variable {next : β → Client σ ν ε α}

theorem Keeps.bind (refl : ∀ state, rely state state) {first : Client σ ν ε β}
    (one : first.Keeps allowed rely guar mid known)
    (two : ∀ value state, mid (.ok value) state → (next value).Keeps allowed rely guar post state)
    (failed : ∀ error state, mid (.error error) state → post (.error error) state) :
    (first.bind next).Keeps allowed rely guar post known := by
  induction first generalizing known with
  | ret value => exact two value known (one known (refl known))
  | raise error => exact fun state step => failed error state (one state step)
  | act note effect next' ih =>
    intro state step meets
    obtain ⟨guaranteed, later⟩ := one state step meets
    exact ⟨guaranteed, ih state later⟩

theorem Keeps.handle (refl : ∀ state, rely state state) {body : Client σ ν ε α} {handler : ε → Client σ ν δ α}
    {last : Except δ α → σ → Prop} (one : body.Keeps allowed rely guar post known)
    (returned : ∀ value state, post (.ok value) state → last (.ok value) state)
    (failed : ∀ error state, post (.error error) state → (handler error).Keeps allowed rely guar last state) :
    (body.handle handler).Keeps allowed rely guar last known := by
  induction body generalizing known with
  | ret value => exact fun state step => returned value state (one state step)
  | raise error => exact failed error known (one known (refl known))
  | act note effect next ih =>
    intro state step meets
    obtain ⟨guaranteed, later⟩ := one state step meets
    exact ⟨guaranteed, ih state later⟩

theorem Keeps.observe (same : ∀ state, guar state state) {note : ν} {view : σ → β}
    (later : ∀ state, rely known state → allowed note state state →
      (next (view state)).Keeps allowed rely guar post state) :
    ((Client.observe note view).bind next).Keeps allowed rely guar post known := by
  intro state step meets
  exact ⟨same state, later state step meets⟩

theorem Keeps.transact (same : ∀ state, guar state state) {note : ν} {action : σ → Except ε (β × σ)}
    (done : ∀ state value after, rely known state → action state = .ok (value, after) → allowed note state after →
      guar state after ∧ (next value).Keeps allowed rely guar post after)
    (refused : ∀ state error, rely known state → action state = .error error →
      (Client.raise error : Client σ ν ε α).Keeps allowed rely guar post state) :
    ((Client.transact note action).bind next).Keeps allowed rely guar post known := by
  intro state step meets
  dsimp only at meets ⊢
  cases found : action state with
  | ok result =>
    obtain ⟨value, after⟩ := result
    rw [found] at meets
    exact done state value after step found meets
  | error error => exact ⟨same state, refused state error step found⟩

theorem Keeps.ofExcept {result : Except ε β}
    (done : ∀ value, result = .ok value → (next value).Keeps allowed rely guar post known)
    (refused : ∀ error, result = .error error →
      (Client.raise error : Client σ ν ε α).Keeps allowed rely guar post known) :
    ((Client.ofExcept result).bind next).Keeps allowed rely guar post known := by
  cases result with
  | ok value => exact done value rfl
  | error error => exact refused error rfl

theorem Keeps.ensure {test : Bool} {error : ε} {next : Unit → Client σ ν ε α}
    (passed : test = true → (next ()).Keeps allowed rely guar post known)
    (refused : test = false → (Client.raise error : Client σ ν ε α).Keeps allowed rely guar post known) :
    ((Client.ensure test error).bind next).Keeps allowed rely guar post known := by
  cases test with
  | true => exact passed rfl
  | false => exact refused rfl

end
end Client

/-! Pools. -/

section
variable {ι σ ν ε α : Type} [DecidableEq ι]

/-- The clients, and the state they share. -/
structure Pool (ι σ ν ε α : Type) where
  clients : ι → Client σ ν ε α
  state : σ

namespace Pool

/-- One client takes its next action; a finished one does nothing. -/
def advance (pool : Pool ι σ ν ε α) (i : ι) : Pool ι σ ν ε α :=
  match pool.clients i with
  | .act _ effect next => ⟨Function.update pool.clients i (next pool.state), effect pool.state⟩
  | _ => pool

/-- The clients take their actions in the order of the schedule. -/
def run (pool : Pool ι σ ν ε α) (schedule : List ι) : Pool ι σ ν ε α := schedule.foldl advance pool

/-- The action the client takes next is an allowed one. -/
def Allows (allowed : ν → σ → σ → Prop) (pool : Pool ι σ ν ε α) (i : ι) : Prop :=
  match pool.clients i with
  | .act note effect _ => allowed note pool.state (effect pool.state)
  | _ => True

def Meets (allowed : ν → σ → σ → Prop) : Pool ι σ ν ε α → List ι → Prop
  | _, [] => True
  | pool, i :: rest => pool.Allows allowed i ∧ (pool.advance i).Meets allowed rest

theorem run_append (pool : Pool ι σ ν ε α) (before after : List ι) :
    pool.run (before ++ after) = (pool.run before).run after := List.foldl_append

theorem Meets.append {allowed : ν → σ → σ → Prop} {pool : Pool ι σ ν ε α} {before after : List ι}
    (meets : pool.Meets allowed (before ++ after)) :
    pool.Meets allowed before ∧ (pool.run before).Meets allowed after := by
  induction before generalizing pool with
  | nil => exact ⟨trivial, meets⟩
  | cons i rest ih =>
    obtain ⟨first, later⟩ := ih meets.2
    exact ⟨⟨meets.1, first⟩, later⟩

def admits (test : ν → σ → σ → Bool) : Pool ι σ ν ε α → List ι → Bool
  | _, [] => true
  | pool, i :: rest =>
    (match pool.clients i with
      | .act note effect _ => test note pool.state (effect pool.state)
      | _ => true) && (pool.advance i).admits test rest

theorem Meets.of_admits {allowed : ν → σ → σ → Prop} {test : ν → σ → σ → Bool}
    (sound : ∀ note before after, test note before after = true → allowed note before after) {pool : Pool ι σ ν ε α}
    {schedule : List ι} (passed : pool.admits test schedule = true) : pool.Meets allowed schedule := by
  induction schedule generalizing pool with
  | nil => trivial
  | cons i rest ih =>
    obtain ⟨first, later⟩ := Bool.and_eq_true_iff.mp passed
    refine ⟨?_, ih later⟩
    unfold Allows
    cases action : pool.clients i with
    | ret value => trivial
    | raise error => trivial
    | act note effect next =>
      rw [action] at first
      exact sound note _ _ first

/-- What the others guarantee is what each client relies on. -/
structure Compatible (rely guar : ι → σ → σ → Prop) : Prop where
  refl : ∀ i state, rely i state state
  trans : ∀ i {one two three}, rely i one two → rely i two three → rely i one three
  others : ∀ i j, i ≠ j → ∀ before after, guar j before after → rely i before after

section
variable {allowed : ν → σ → σ → Prop} {rely guar : ι → σ → σ → Prop} {post : ι → Except ε α → σ → Prop}
  {pool : Pool ι σ ν ε α} {schedule : List ι}

def Keeps (allowed : ν → σ → σ → Prop) (rely guar : ι → σ → σ → Prop) (post : ι → Except ε α → σ → Prop)
    (pool : Pool ι σ ν ε α) : Prop :=
  ∀ i, (pool.clients i).Keeps allowed (rely i) (guar i) (post i) pool.state

theorem Keeps.advance (compatible : Compatible rely guar) (keeps : pool.Keeps allowed rely guar post) {i : ι}
    (allows : pool.Allows allowed i) :
    (pool.advance i).Keeps allowed rely guar post ∧
      ((pool.advance i).state = pool.state ∨ guar i pool.state (pool.advance i).state) := by
  unfold Pool.advance
  unfold Allows at allows
  cases found : pool.clients i with
  | ret value => exact ⟨keeps, .inl rfl⟩
  | raise error => exact ⟨keeps, .inl rfl⟩
  | act note effect next =>
    rw [found] at allows
    have own := keeps i
    rw [found] at own
    obtain ⟨guaranteed, later⟩ := own pool.state (compatible.refl i pool.state) allows
    refine ⟨?_, .inr guaranteed⟩
    intro j
    by_cases same : j = i
    · subst same
      dsimp only
      rw [Function.update_self]
      exact later
    · dsimp only
      rw [Function.update_of_ne same]
      have seen := compatible.others j i same pool.state (effect pool.state) guaranteed
      apply Client.Keeps.later _ (keeps j) seen
      exact compatible.trans j

theorem Keeps.run (compatible : Compatible rely guar) (keeps : pool.Keeps allowed rely guar post)
    (meets : pool.Meets allowed schedule) : (pool.run schedule).Keeps allowed rely guar post := by
  induction schedule generalizing pool with
  | nil => exact keeps
  | cons i rest ih => exact ih (keeps.advance compatible meets.1).1 meets.2

/-- A preorder that every guarantee implies relates the first state of a run to the last. -/
theorem Keeps.relates (compatible : Compatible rely guar) (keeps : pool.Keeps allowed rely guar post)
    {relation : σ → σ → Prop} (refl : ∀ state, relation state state)
    (trans : ∀ {one two three}, relation one two → relation two three → relation one three)
    (implied : ∀ i before after, guar i before after → relation before after)
    (meets : pool.Meets allowed schedule) : relation pool.state (pool.run schedule).state := by
  induction schedule generalizing pool with
  | nil => exact refl pool.state
  | cons i rest ih =>
    obtain ⟨kept, step⟩ := keeps.advance compatible meets.1
    have later := ih kept meets.2
    rcases step with same | guaranteed
    · rw [same] at later
      exact later
    · exact trans (implied i _ _ guaranteed) later

omit [DecidableEq ι] in
theorem Keeps.finished (compatible : Compatible rely guar) (keeps : pool.Keeps allowed rely guar post) {i : ι} :
    (∀ value, pool.clients i = .ret value → post i (.ok value) pool.state) ∧
      ∀ error, pool.clients i = .raise error → post i (.error error) pool.state := by
  have own := keeps i
  constructor
  · intro value found
    rw [found] at own
    exact own pool.state (compatible.refl i pool.state)
  · intro error found
    rw [found] at own
    exact own pool.state (compatible.refl i pool.state)

end

/-! Pools in surroundings that change the state on their own. -/

/-- A client takes its next action, or the surroundings change the state. -/
inductive Move (ι σ : Type) where
  | take (i : ι)
  | outside (change : σ → σ)

def move (pool : Pool ι σ ν ε α) : Move ι σ → Pool ι σ ν ε α
  | .take i => pool.advance i
  | .outside change => { pool with state := change pool.state }

def course (pool : Pool ι σ ν ε α) (moves : List (Move ι σ)) : Pool ι σ ν ε α := moves.foldl move pool

/-- Every action and every change of the course is an allowed one. -/
def Obeys (allowed : ν → σ → σ → Prop) (outside : σ → σ → Prop) : Pool ι σ ν ε α → List (Move ι σ) → Prop
  | _, [] => True
  | pool, .take i :: rest => pool.Allows allowed i ∧ (pool.move (.take i)).Obeys allowed outside rest
  | pool, .outside change :: rest =>
    outside pool.state (change pool.state) ∧ (pool.move (.outside change)).Obeys allowed outside rest

theorem course_append (pool : Pool ι σ ν ε α) (before after : List (Move ι σ)) :
    pool.course (before ++ after) = (pool.course before).course after := List.foldl_append

section
variable {allowed : ν → σ → σ → Prop} {outside : σ → σ → Prop} {rely guar : ι → σ → σ → Prop}
  {post : ι → Except ε α → σ → Prop} {pool : Pool ι σ ν ε α} {moves : List (Move ι σ)}

theorem Obeys.append {before after : List (Move ι σ)} (obeys : pool.Obeys allowed outside (before ++ after)) :
    pool.Obeys allowed outside before ∧ (pool.course before).Obeys allowed outside after := by
  induction before generalizing pool with
  | nil => exact ⟨trivial, obeys⟩
  | cons move rest ih =>
    cases move with
    | take i =>
      obtain ⟨first, later⟩ := ih obeys.2
      exact ⟨⟨obeys.1, first⟩, later⟩
    | outside change =>
      obtain ⟨first, later⟩ := ih obeys.2
      exact ⟨⟨obeys.1, first⟩, later⟩

theorem Meets.obeys {schedule : List ι} (meets : pool.Meets allowed schedule) :
    pool.Obeys allowed outside (schedule.map .take) := by
  induction schedule generalizing pool with
  | nil => trivial
  | cons i rest ih => exact ⟨meets.1, ih meets.2⟩

omit [DecidableEq ι] in
theorem Keeps.perturb (compatible : Compatible rely guar) (keeps : pool.Keeps allowed rely guar post) {state : σ}
    (around : ∀ i, rely i pool.state state) :
    ({ pool with state := state } : Pool ι σ ν ε α).Keeps allowed rely guar post := by
  intro i
  apply Client.Keeps.later _ (keeps i) (around i)
  exact compatible.trans i

/-- In every course the clients keep what each of them keeps alone, and a preorder that every
guarantee and every change implies relates the first state to the last. -/
theorem Keeps.course (compatible : Compatible rely guar)
    (around : ∀ i before after, outside before after → rely i before after) (keeps : pool.Keeps allowed rely guar post)
    {relation : σ → σ → Prop} (refl : ∀ state, relation state state)
    (trans : ∀ {one two three}, relation one two → relation two three → relation one three)
    (implied : ∀ i before after, guar i before after → relation before after)
    (changed : ∀ before after, outside before after → relation before after) (obeys : pool.Obeys allowed outside moves) :
    (pool.course moves).Keeps allowed rely guar post ∧ relation pool.state (pool.course moves).state := by
  induction moves generalizing pool with
  | nil => exact ⟨keeps, refl pool.state⟩
  | cons move rest ih =>
    cases move with
    | take i =>
      obtain ⟨kept, step⟩ := keeps.advance compatible obeys.1
      obtain ⟨last, later⟩ := ih kept obeys.2
      refine ⟨last, ?_⟩
      rcases step with same | guaranteed
      · rw [← same]
        exact later
      · exact trans (implied i _ _ guaranteed) later
    | outside change =>
      have kept := keeps.perturb compatible fun i => around i _ _ obeys.1
      obtain ⟨last, later⟩ := ih kept obeys.2
      exact ⟨last, trans (changed _ _ obeys.1) later⟩

end
end Pool
end
end Workctx.Concurrent
