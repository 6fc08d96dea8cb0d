import Mathlib.Data.List.Chain
import Mathlib.Data.List.Nodup
import Mathlib.Data.List.Perm.Subperm
import Mathlib.Logic.Relation

/-! The walk along a partial function: it stops where the function does, or turns in a circle. -/

namespace Workctx.Relational
open List

section
variable {α : Type} (next : α → Option α)

def Link (one other : α) : Prop := next one = some other

def Reaches (one other : α) : Prop := Relation.ReflTransGen (Link next) one other

def Recurs (item : α) : Prop := Relation.TransGen (Link next) item item

/-- How a walk ends: at its last item, or in a circle. -/
inductive Ending (α : Type) where
  | stops (trail : List α) (last : α)
  | turns (circle : List α)

/-- The walk behind the items of a trail; none where the steps do not suffice. -/
def walk [DecidableEq α] : Nat → List α → α → Option (Ending α)
  | 0, _, _ => none
  | steps + 1, trail, current =>
    if current ∈ trail then some (.turns (trail.drop (trail.idxOf current)))
    else
      match next current with
      | none => some (.stops trail current)
      | some further => walk steps (trail ++ [current]) further

/-- What the end of a walk from here says of the function. -/
inductive Ended (start : α) : Ending α → Prop
  | stops {trail : List α} {last : α} (starts : (trail ++ [last]).head? = some start) (distinct : (trail ++ [last]).Nodup)
    (linked : (trail ++ [last]).IsChain (Link next)) (final : next last = none) : Ended start (.stops trail last)
  | turns {front circle : List α} {first : α} (starts : (front ++ circle).head? = some start) (opens : circle.head? = some first)
    (distinct : (front ++ circle).Nodup) (linked : (front ++ circle ++ [first]).IsChain (Link next)) : Ended start (.turns circle)

end

section
variable {α : Type} {next : α → Option α}

theorem link_unique : Relator.RightUnique (Link next) := fun _ _ _ first second => Option.some.inj (first.symm.trans second)

/-! What comes back -/

variable {item last start : α} {trail : List α}

theorem Recurs.back {other : α} (recurs : Recurs next item) (reached : Reaches next item other) : Reaches next other item := by
  induction reached with
  | refl => exact .refl
  | tail _ link ih =>
    rcases Relation.ReflTransGen.cases_head ih with same | ⟨second, first, rest⟩
    · subst same
      obtain ⟨second, first, rest⟩ := Relation.TransGen.head'_iff.mp recurs
      exact link_unique first link ▸ rest
    · exact link_unique first link ▸ rest

theorem Recurs.onward {other : α} (recurs : Recurs next item) (reached : Reaches next item other) : Recurs next other := by
  have back := recurs.back reached
  exact (Relation.TransGen.trans_right back recurs).trans_left reached

theorem Recurs.meets {one two : α} (recurs : Recurs next item) (first : Reaches next item one)
    (second : Reaches next item two) : Reaches next one two := (recurs.back first).trans second

theorem Reaches.eq_of_final {other : α} (final : next last = none) (reached : Reaches next last other) : other = last := by
  rcases Relation.ReflTransGen.cases_head reached with same | ⟨second, first, _⟩
  · exact same.symm
  · exact absurd (final.symm.trans first) (by simp)

theorem not_recurs_of_final (final : next last = none) (stops : Reaches next start last)
    (reached : Reaches next start item) : ¬Recurs next item := by
  intro recurs
  have back : Reaches next last item := by
    rcases Relation.ReflTransGen.total_of_right_unique link_unique stops reached with onward | behind
    · exact onward
    · exact recurs.back behind
  obtain ⟨second, first, _⟩ := Relation.TransGen.head'_iff.mp recurs
  rw [back.eq_of_final final] at first
  exact absurd (final.symm.trans first) (by simp)

/-! Chains -/

theorem reaches_of_chain {first : α} {rest : List α} (linked : (first :: rest).IsChain (Link next))
    (member : item ∈ first :: rest) : Reaches next first item := by
  induction rest generalizing first with
  | nil =>
    rw [mem_singleton.mp member]
    exact .refl
  | cons second more ih =>
    obtain ⟨link, below⟩ := isChain_cons_cons.mp linked
    rcases mem_cons.mp member with same | later
    · exact same ▸ .refl
    · exact (ih below later).head link

theorem mem_circle {circle : List α} {first : α} (opens : circle.head? = some first)
    (linked : (circle ++ [first]).IsChain (Link next)) (reached : Reaches next first item) : item ∈ circle := by
  induction reached with
  | refl => exact mem_of_head? opens
  | tail _ link ih =>
    obtain ⟨before, after, rfl⟩ := append_of_mem ih
    rw [append_assoc, cons_append] at linked
    have behind := linked.right_of_append
    cases after with
    | nil =>
      have own := link_unique link (isChain_cons_cons.mp behind).1
      exact own ▸ mem_of_head? opens
    | cons second more =>
      have own := link_unique link (isChain_cons_cons.mp behind).1
      rw [own]
      exact mem_append_right _ (mem_cons_of_mem _ mem_cons_self)

theorem recurs_of_circle {circle : List α} {first : α} (opens : circle.head? = some first)
    (linked : (circle ++ [first]).IsChain (Link next)) : Recurs next first := by
  obtain ⟨rest, rfl⟩ := head?_eq_some_iff.mp opens
  rw [cons_append] at linked
  cases turn : rest ++ [first] with
  | nil => simp at turn
  | cons second more =>
    rw [turn] at linked
    obtain ⟨link, below⟩ := isChain_cons_cons.mp linked
    have closing : first ∈ second :: more := turn ▸ mem_append_right _ mem_cons_self
    exact Relation.TransGen.head' link (reaches_of_chain below closing)

/-! How walks end -/

section
variable (ended : Ended next start (.stops trail last))
include ended

theorem Ended.reaches_last :
    Reaches next start last := by
  cases ended with
  | stops starts _ linked _ =>
    obtain ⟨rest, same⟩ := head?_eq_some_iff.mp starts
    rw [same] at linked
    have member : last ∈ start :: rest := same ▸ mem_append_right _ mem_cons_self
    exact reaches_of_chain linked member

theorem Ended.not_recurs
    (reached : Reaches next start item) : ¬Recurs next item := by
  have stops := ended.reaches_last
  cases ended with
  | stops _ _ _ final => exact not_recurs_of_final final stops reached

/-- A walk that stops is long where its last item is neither its first nor its second. -/
theorem Ended.long_iff :
    2 < (trail ++ [last]).length ↔ last ≠ start ∧ ¬Link next start last := by
  cases ended with
  | stops starts distinct linked final =>
    cases trail with
    | nil =>
      obtain rfl : last = start := Option.some.inj starts
      simp
    | cons first rest =>
      obtain rfl : first = start := Option.some.inj starts
      rw [cons_append] at distinct linked
      have apart : last ≠ first := fun same => (nodup_cons.mp distinct).1 (same ▸ mem_append_right _ mem_cons_self)
      cases rest with
      | nil =>
        have link : Link next first last := (isChain_cons_cons.mp linked).1
        simp [link]
      | cons second more =>
        have link : Link next first second := (isChain_cons_cons.mp linked).1
        have later := (nodup_cons.mp (nodup_cons.mp distinct).2).1
        have other : ¬Link next first last := by
          intro direct
          exact later (link_unique link direct ▸ mem_append_right _ mem_cons_self)
        simp [apart, other]

end

theorem Ended.circle {start : α} {circle : List α} (ended : Ended next start (.turns circle)) :
    ∃ first, circle.head? = some first ∧ Reaches next start first ∧ Recurs next first ∧
      ∀ item, item ∈ circle ↔ Reaches next first item := by
  cases ended with
  | @turns front _ first starts opens _ linked =>
    have turning : (circle ++ [first]).IsChain (Link next) := (append_assoc .. ▸ linked).right_of_append
    refine ⟨first, opens, ?_, recurs_of_circle opens turning, ?_⟩
    · obtain ⟨rest, same⟩ := head?_eq_some_iff.mp starts
      rw [same] at linked
      have closing : first ∈ start :: rest := same ▸ mem_append_right _ (mem_of_head? opens)
      exact reaches_of_chain linked.left_of_append closing
    · intro item
      constructor
      · intro member
        obtain ⟨rest, rfl⟩ := head?_eq_some_iff.mp opens
        exact reaches_of_chain turning.left_of_append member
      · exact mem_circle opens turning

theorem Ended.opens {start : α} {circle : List α} (ended : Ended next start (.turns circle)) (recurs : Recurs next start) :
    circle.head? = some start := by
  obtain ⟨first, opens, reached, _, members⟩ := ended.circle
  have inside : start ∈ circle := (members start).mpr (recurs.back reached)
  cases ended with
  | @turns front _ _ starts _ distinct _ =>
    cases front with
    | nil => exact starts
    | cons other rest =>
      obtain rfl : other = start := Option.some.inj starts
      exact absurd inside (disjoint_of_nodup_append distinct mem_cons_self)

theorem Ended.recurs {start : α} {circle : List α} (ended : Ended next start (.turns circle)) :
    ∀ item ∈ circle, Reaches next start item ∧ Recurs next item := by
  obtain ⟨first, _, reached, recurs, members⟩ := ended.circle
  intro item member
  have behind := (members item).mp member
  exact ⟨reached.trans behind, recurs.onward behind⟩

theorem Ended.mem_circle {start item : α} {circle : List α} (ended : Ended next start (.turns circle))
    (reached : Reaches next start item) (recurs : Recurs next item) : item ∈ circle := by
  obtain ⟨first, _, turning, again, members⟩ := ended.circle
  refine (members item).mpr ?_
  rcases Relation.ReflTransGen.total_of_right_unique link_unique turning reached with onward | behind
  · exact onward
  · exact recurs.back behind

/-! The walk itself -/

variable [DecidableEq α]

theorem walk_ended {steps : Nat} {current : α} {ending : Ending α}
    (walked : walk next steps trail current = some ending) (starts : (trail ++ [current]).head? = some start)
    (distinct : trail.Nodup) (linked : (trail ++ [current]).IsChain (Link next)) : Ended next start ending := by
  induction steps generalizing trail current with
  | zero => cases walked
  | succ steps ih =>
    rw [walk] at walked
    split at walked
    · next member =>
      cases walked
      have split := take_append_drop (trail.idxOf current) trail
      have opens : (trail.drop (trail.idxOf current)).head? = some current := by
        rw [head?_drop]
        exact getElem?_idxOf member
      refine @Ended.turns _ _ _ (trail.take (trail.idxOf current)) _ _ ?_ opens ?_ ?_
      · rw [split]
        rw [head?_append_of_ne_nil _ (ne_nil_of_mem member)] at starts
        exact starts
      · rw [split]
        exact distinct
      · rw [split]
        exact linked
    · next fresh =>
      have apart : (trail ++ [current]).Nodup := nodup_append.mpr
        ⟨distinct, nodup_singleton _, fun one member other last same => fresh (mem_singleton.mp last ▸ same ▸ member)⟩
      split at walked
      · next final =>
        cases walked
        exact .stops starts apart linked final
      · next further link =>
        refine ih walked ?_ apart ?_
        · rw [head?_append_of_ne_nil _ (by simp)]
          exact starts
        · refine linked.append (isChain_singleton _) ?_
          intro one last other first
          obtain rfl : current = one := by simpa using last
          obtain rfl : further = other := by simpa using first
          exact link

theorem walk_isSome {items : List α} (inside : ∀ one other, Link next one other → other ∈ items) {steps : Nat}
    {current : α} (distinct : trail.Nodup) (among : trail ⊆ items) (member : current ∈ items)
    (enough : items.length < steps + trail.length) : ∃ ending, walk next steps trail current = some ending := by
  induction steps generalizing trail current with
  | zero =>
    have bounded := (subperm_of_subset distinct among).length_le
    omega
  | succ steps ih =>
    rw [walk]
    split
    · exact ⟨_, rfl⟩
    · next fresh =>
      split
      · exact ⟨_, rfl⟩
      · next further link =>
        refine ih ?_ ?_ (inside current further link) ?_
        · exact nodup_append.mpr
            ⟨distinct, nodup_singleton _, fun one old other last same => fresh (mem_singleton.mp last ▸ same ▸ old)⟩
        · exact append_subset.mpr ⟨among, cons_subset.mpr ⟨member, nil_subset _⟩⟩
        · rw [length_append, length_singleton]
          omega

theorem walk_mono {steps more : Nat} {current : α} {ending : Ending α} (bounded : steps ≤ more)
    (walked : walk next steps trail current = some ending) : walk next more trail current = some ending := by
  induction steps generalizing more trail current with
  | zero => cases walked
  | succ steps ih =>
    obtain ⟨more, rfl⟩ : ∃ less, more = less + 1 := ⟨more - 1, by omega⟩
    rw [walk] at walked ⊢
    split at walked
    · next member => rw [if_pos member, walked]
    · next fresh =>
      rw [if_neg fresh]
      split at walked
      · exact walked
      · exact ih (by omega) walked

end
end Workctx.Relational
