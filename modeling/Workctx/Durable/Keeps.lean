import Workctx.Durable.Triple

/-! Programs that keep an assertion through every step, whatever disturbs them. -/

namespace Workctx.Durable
variable {σ τ ε α β : Type}

/-- The assertion holds behind a normal return and in every store that an interruption leaves. -/
def Keeps (inv : σ → Prop) (program : Program σ τ ε α) : Prop := Triple False inv program (fun _ => inv) inv

namespace Keeps
variable {inv : σ → Prop}

theorem ret {value : α} : Keeps inv (.ret value : Program σ τ ε α) := Triple.ret fun _ => id

theorem raise {error : ε} : Keeps inv (.raise error : Program σ τ ε α) := Triple.raise fun _ holds => ⟨holds, id⟩

theorem observe {view : σ → α} : Keeps inv (Program.observe view : Program σ τ ε α) := Triple.observe fun _ => id

theorem check {view : σ → Except ε α} : Keeps inv (Program.check view : Program σ τ ε α) :=
  Triple.check (fun _ holds _ _ => holds) fun _ holds _ _ => ⟨holds, id⟩

theorem ensure {test : Bool} {error : ε} : Keeps inv (Program.ensure test error : Program σ τ ε Unit) :=
  Triple.ensure (fun _ holds _ => holds) fun _ holds _ => ⟨holds, id⟩

theorem perform {durable : Step σ τ} (effect : ∀ store, inv store → inv (durable.effect store))
    (torn : ∀ store how, inv store → inv (durable.torn how store)) : Keeps inv (Program.perform durable : Program σ τ ε Unit) :=
  Triple.perform fun store holds => ⟨effect store holds, holds, effect store holds, fun how => torn store how holds⟩

theorem bind {first : Program σ τ ε α} {next : α → Program σ τ ε β} (one : Keeps inv first) (two : ∀ value, Keeps inv (next value)) :
    Keeps inv (first.bind next) := Triple.bind one two

theorem handle {body : Program σ τ ε α} {handler : ε → Program σ τ ε α} (one : Keeps inv body) (two : ∀ error, Keeps inv (handler error)) :
    Keeps inv (body.handle handler) := Triple.handle one (fun _ => id) two

theorem cleanup {body : Program σ τ ε α} {last : Program σ τ ε Unit} (one : Keeps inv body) (two : Keeps inv last) :
    Keeps inv (body.cleanup last) := Triple.cleanup one (fun _ => id) (fun _ => two) two

theorem forEach {body : α → Program σ τ ε Unit} {items : List α} (each : ∀ item ∈ items, Keeps inv (body item)) :
    Keeps inv (Program.forEach body items) := Triple.forEach_keep items each

theorem retry {transient : ε → Bool} {exhausted : ε} {guard action : Program σ τ ε Unit} {attempts : Nat} (guarded : Keeps inv guard)
    (acted : Keeps inv action) : Keeps inv (Program.retry transient exhausted guard action attempts) := by
  induction attempts with
  | zero => exact raise
  | succ attempts ih =>
    refine bind guarded fun _ => handle acted fun error => ?_
    split
    · split
      · exact raise
      · exact ih
    · exact raise

theorem attempt {body : Program σ τ ε α} {next : α → Program σ τ ε β} {failed : ε → Program σ τ ε β} (one : Keeps inv body)
    (two : ∀ value, Keeps inv (next value)) (caught : ∀ error, Keeps inv (failed error)) : Keeps inv (body.attempt next failed) :=
  Triple.attempt one (fun _ => id) two caught

end Keeps

/-- The program keeps an assertion, and returns only values with a property. -/
def Finds (inv : σ → Prop) (found : α → Prop) (program : Program σ τ ε α) : Prop :=
  Triple False inv program (fun value store => inv store ∧ found value) inv

namespace Finds
variable {inv : σ → Prop} {found : α → Prop}

theorem ret {value : α} (holds : found value) : Finds inv found (.ret value : Program σ τ ε α) := Triple.ret fun _ now => ⟨now, holds⟩

theorem raise {error : ε} : Finds inv found (.raise error : Program σ τ ε α) := Triple.raise fun _ holds => ⟨holds, id⟩

theorem check {view : σ → Except ε α} (holds : ∀ store value, view store = .ok value → found value) :
    Finds inv found (Program.check view : Program σ τ ε α) :=
  Triple.check (fun store now value seen => ⟨now, holds store value seen⟩) fun _ now _ _ => ⟨now, id⟩

theorem check_at {start : σ} {view : σ → Except ε α} :
    Finds (fun store => store = start) (fun value => view start = .ok value) (Program.check view : Program σ τ ε α) :=
  Triple.check (fun _ same _ seen => ⟨same, same ▸ seen⟩) fun _ same _ _ => ⟨same, id⟩

theorem observe_at {start : σ} {view : σ → α} :
    Finds (fun store => store = start) (fun value => value = view start) (Program.observe view : Program σ τ ε α) :=
  Triple.observe fun _ same => ⟨same, same ▸ rfl⟩

theorem ensure {test : Bool} {error : ε} : Finds inv (fun _ => test = true) (Program.ensure test error : Program σ τ ε Unit) :=
  Triple.ensure (fun _ now holds => ⟨now, holds⟩) fun _ now _ => ⟨now, id⟩

theorem of_keeps {program : Program σ τ ε α} (keeps : Keeps inv program) : Finds inv (fun _ => True) program :=
  Triple.ensuring keeps (fun _ _ now => ⟨now, trivial⟩)

theorem bind {later : β → Prop} {first : Program σ τ ε α} {next : α → Program σ τ ε β} (one : Finds inv found first)
    (two : ∀ value, found value → Finds inv later (next value)) : Finds inv later (first.bind next) :=
  Triple.bind one fun value store faults now => two value now.2 store faults now.1

end Finds

/-- Started from this store, the program ends in the assertion wherever it stops. -/
def LeadsTo (inv : σ → Prop) (start : σ) (program : Program σ τ ε α) : Prop :=
  Triple False (fun store => store = start) program (fun _ => inv) inv

namespace LeadsTo
variable {inv cut : σ → Prop} {middle : α → σ → Prop} {start : σ} {found : α → Prop} {first : Program σ τ ε α}
  {next : α → Program σ τ ε β}

theorem of_keeps (keeps : Keeps inv first) (holds : inv start) : LeadsTo inv start first :=
  keeps.strengthen (fun _ same => same ▸ holds)

theorem bind (one : Triple False (fun store => store = start) first middle cut) (stopped : ∀ store, cut store → inv store)
    (two : ∀ value store, middle value store → LeadsTo inv store (next value)) : LeadsTo inv start (first.bind next) :=
  Triple.bind (one.stopping stopped) fun value => Triple.of_each fun store reached =>
    two value store reached

theorem find (holds : inv start) (one : Finds (fun store => store = start) found first)
    (two : ∀ value, found value → LeadsTo inv start (next value)) : LeadsTo inv start (first.bind next) :=
  Triple.bind (one.stopping fun _ same => same ▸ holds) fun value store faults now =>
    two value now.2 store faults now.1

end LeadsTo

end Workctx.Durable
