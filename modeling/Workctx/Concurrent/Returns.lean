import Workctx.Concurrent.Alone

/-! The values a client returns, whatever the others make of the state between its actions. -/

namespace Workctx.Concurrent

variable {ι σ ν ε α β : Type}

/-- The client may return the value: its actions find some states. -/
inductive Client.Returns : Client σ ν ε α → α → Prop where
  | ret (value : α) : Returns (.ret value) value
  | act (note : ν) (effect : σ → σ) (next : σ → Client σ ν ε α) (state : σ) (value : α) (later : Returns (next state) value) :
    Returns (.act note effect next) value

namespace Client.Returns

theorem of_ret {value other : α} (returns : (Client.ret value : Client σ ν ε α).Returns other) : other = value := by
  cases returns
  rfl

theorem not_raise {error : ε} {value : α} : ¬(Client.raise error : Client σ ν ε α).Returns value := nofun

theorem of_bind {first : Client σ ν ε α} {next : α → Client σ ν ε β} {value : β} (returns : (first >>= next).Returns value) :
    ∃ middle, first.Returns middle ∧ (next middle).Returns value := by
  induction first with
  | ret middle => exact ⟨middle, .ret middle, returns⟩
  | raise error => exact absurd returns not_raise
  | act note effect rest ih =>
    cases returns with
    | act _ _ _ state _ later =>
      obtain ⟨middle, found, ends⟩ := ih state later
      exact ⟨middle, .act note effect rest state middle found, ends⟩

theorem of_ofExcept {result : Except ε α} {value : α} (returns : (Client.ofExcept result : Client σ ν ε α).Returns value) :
    result = .ok value := by
  cases result with
  | ok other => rw [of_ret returns]
  | error error => exact absurd returns not_raise

theorem of_alone {client : Client σ ν ε α} {state : σ} {value : α} (done : (client.alone state).1 = .ok value) : client.Returns value := by
  induction client generalizing state with
  | ret other =>
    rw [← Except.ok.inj done]
    exact .ret other
  | raise error => cases done
  | act note effect next ih => exact .act note effect next state value (ih state done)

end Client.Returns

end Workctx.Concurrent
