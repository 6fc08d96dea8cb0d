import Workctx.Concurrent.Discipline

/-! Clients that run alone, and two of them that act alike. -/

namespace Workctx.Concurrent
namespace Client
variable {σ ν ε δ α β : Type}

/-- The result of a client that nobody interrupts, and the state it leaves. -/
def alone : Client σ ν ε α → σ → Except ε α × σ
  | .ret value, state => (.ok value, state)
  | .raise error, state => (.error error, state)
  | .act _ effect next, state => (next state).alone (effect state)

theorem alone_bind (first : Client σ ν ε α) (next : α → Client σ ν ε β) (state : σ) :
    (first >>= next).alone state = match first.alone state with
      | (.ok value, after) => (next value).alone after
      | (.error error, after) => (.error error, after) := by
  induction first generalizing state with
  | ret value => rfl
  | raise error => rfl
  | act note effect later ih => exact ih state (effect state)

theorem alone_handle (body : Client σ ν ε α) (handler : ε → Client σ ν δ α) (state : σ) :
    (body.handle handler).alone state = match body.alone state with
      | (.ok value, after) => (.ok value, after)
      | (.error error, after) => (handler error).alone after := by
  induction body generalizing state with
  | ret value => rfl
  | raise error => rfl
  | act note effect later ih => exact ih state (effect state)

def Follows (guar : σ → σ → Prop) : Client σ ν ε α → Prop
  | .act _ effect next => ∀ state, guar state (effect state) ∧ (next state).Follows guar
  | _ => True

theorem Follows.alone {guar : σ → σ → Prop} {client : Client σ ν ε α} (follows : client.Follows guar) (refl : ∀ state, guar state state)
    (trans : ∀ {one two three}, guar one two → guar two three → guar one three) (state : σ) : guar state (client.alone state).2 := by
  induction client generalizing state with
  | ret value => exact refl state
  | raise error => exact refl state
  | act note effect next ih => exact trans (follows state).1 (ih state (follows state).2 (effect state))

section
variable (same : ν → σ → Prop) (parts guar : σ → σ → Prop)

/-- Every action that the client takes alone is one that is the same for both. -/
def Passes : Client σ ν ε α → σ → Prop
  | .act note effect next, state => same note state ∧ (next state).Passes (effect state)
  | _, _ => True

/-- The second client takes the actions of the first, each of which is in the relation. An action that
is not the same for both parts them. -/
inductive Mirrors : Client σ ν ε α → Client σ ν ε α → Prop
  | ret (value : α) : Mirrors (.ret value) (.ret value)
  | raise (error : ε) : Mirrors (.raise error) (.raise error)
  | act (note : ν) {one two : σ → σ} {first second : σ → Client σ ν ε α} (left : ∀ state, guar state (one state))
      (alike : ∀ state, same note state → one state = two state)
      (later : ∀ state, same note state → Mirrors (first state) (second state))
      (apart : ∀ state, ¬same note state → parts (one state) (two state)) :
      Mirrors (.act note one first) (.act note two second)

end

section
variable {same : ν → σ → Prop} {parts guar : σ → σ → Prop}

variable {one two : Client σ ν ε α}

section
variable (mirrors : Mirrors same parts guar one two)
include mirrors

/-- Where every action is the same for both, all of them are in the relation. -/
theorem Mirrors.follows (all : ∀ note state, same note state) :
    one.Follows guar := by
  induction mirrors with
  | ret value => trivial
  | raise error => trivial
  | act note left alike later apart ih => exact fun state => ⟨left state, ih state (all note state)⟩

theorem Mirrors.alone_iff {state : σ}
    (refl : ∀ state, guar state state) (trans : ∀ {one two three}, guar one two → guar two three → guar one three)
    (parted : ∀ {first second left right}, parts first second → guar first left → guar second right → left ≠ right)
    (follows : one.Follows guar) (also : two.Follows guar) : one.alone state = two.alone state ↔ one.Passes same state := by
  induction mirrors generalizing state with
  | ret value => exact ⟨fun _ => trivial, fun _ => rfl⟩
  | raise error => exact ⟨fun _ => trivial, fun _ => rfl⟩
  | act note _ alike later apart ih =>
    rename_i left right first second _
    have followsFirst := (follows state).2
    have followsSecond := (also state).2
    change (first state).alone (left state) = (second state).alone (right state) ↔
      same note state ∧ (first state).Passes same (left state)
    by_cases equal : same note state
    · rw [← alike state equal, ih state equal followsFirst followsSecond]
      exact ⟨fun passes => ⟨equal, passes⟩, fun both => both.2⟩
    · constructor
      · intro same_
        have ends := parted (apart state equal) (followsFirst.alone refl trans _) (followsSecond.alone refl trans _)
        exact absurd (congrArg Prod.snd same_) ends
      · exact fun both => absurd both.1 equal

/-! Rules. -/

theorem mirrors_bind {first second : α → Client σ ν ε β}
    (later : ∀ value, Mirrors same parts guar (first value) (second value)) : Mirrors same parts guar (one >>= first) (two >>= second) := by
  induction mirrors with
  | ret value => exact later value
  | raise error => exact .raise error
  | act note left alike _ apart ih => exact .act note left alike ih apart

theorem mirrors_handle {first second : ε → Client σ ν δ α}
    (later : ∀ error, Mirrors same parts guar (first error) (second error)) :
    Mirrors same parts guar (one.handle first) (two.handle second) := by
  induction mirrors with
  | ret value => exact .ret value
  | raise error => exact later error
  | act note left alike _ apart ih => exact .act note left alike ih apart

end

theorem mirrors_observe {note : ν} {view : σ → α} (refl : ∀ state, guar state state) (plain : ∀ state, same note state) :
    Mirrors same parts guar (Client.observe note view : Client σ ν ε α) (Client.observe note view) :=
  .act note refl (fun _ _ => rfl) (fun _ _ => .ret _) fun state differs => absurd (plain state) differs

theorem mirrors_ensure {test : Bool} {error : ε} :
    Mirrors same parts guar (Client.ensure test error : Client σ ν ε Unit) (Client.ensure test error) := by
  cases test with
  | true => exact .ret ()
  | false => exact .raise error

theorem mirrors_ofExcept {result : Except ε α} :
    Mirrors same parts guar (Client.ofExcept result : Client σ ν ε α) (Client.ofExcept result) := by
  cases result with
  | ok value => exact .ret value
  | error error => exact .raise error

/-- An action that may be refused, of which the second client takes another form. -/
theorem mirrors_transact {note : ν} {one two : σ → Except ε (α × σ)} (refl : ∀ state, guar state state)
    (left : ∀ state value after, one state = .ok (value, after) → guar state after) (alike : ∀ state, same note state → one state = two state)
    (apart : ∀ state, ¬same note state → ∃ value after other later, one state = .ok (value, after) ∧
      two state = .ok (other, later) ∧ parts after later) :
    Mirrors same parts guar (Client.transact note one : Client σ ν ε α) (Client.transact note two) := by
  apply Mirrors.act
  · intro state
    cases found : one state with
    | error error => exact refl state
    | ok result => exact left state result.1 result.2 found
  · intro state equal
    rw [alike state equal]
  · intro state equal
    rw [alike state equal]
    cases two state with
    | ok result => exact .ret _
    | error error => exact .raise error
  · intro state differs
    obtain ⟨value, after, other, later, first, second, parted⟩ := apart state differs
    rw [first, second]
    exact parted

theorem mirrors_act {note : ν} {action : σ → Except ε (α × σ)} (refl : ∀ state, guar state state)
    (left : ∀ state value after, action state = .ok (value, after) → guar state after) (plain : ∀ state, same note state) :
    Mirrors same parts guar (Client.transact note action : Client σ ν ε α) (Client.transact note action) :=
  mirrors_transact refl left (fun _ _ => rfl) fun state differs => absurd (plain state) differs

end
end Client
end Workctx.Concurrent
