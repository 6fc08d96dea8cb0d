import Mathlib.Data.List.Basic

/-! Matches in a text from the left that do not overlap: the finder stands between two of them in
front of a rest of the text, or one of them runs into the rest. -/

namespace Workctx.Text
open List

/-- What is found behind a sign, in front of a text, and the number of its signs. -/
abbrev Matcher (σ α : Type) := Option σ → List σ → Option (α × Nat)

def lastOr {σ : Type} (before : Option σ) (text : List σ) : Option σ := text.getLast?.or before

namespace Matcher
variable {σ α : Type} (matcher : Matcher σ α)

/-- What is found in a text, with the places where it starts; some signs of the last match are left. -/
def findFrom : (place left : Nat) → Option σ → List σ → List (Nat × α)
  | _, _, _, [] => []
  | place, left + 1, _, sign :: rest => findFrom (place + 1) left (some sign) rest
  | place, 0, before, sign :: rest =>
    match matcher before (sign :: rest) with
    | some (item, length) => (place, item) :: findFrom (place + 1) (length - 1) (some sign) rest
    | none => findFrom (place + 1) 0 (some sign) rest

def found : (left : Nat) → Option σ → List σ → List α
  | _, _, [] => []
  | left + 1, _, sign :: rest => found left (some sign) rest
  | 0, before, sign :: rest =>
    match matcher before (sign :: rest) with
    | some (item, length) => item :: found (length - 1) (some sign) rest
    | none => found 0 (some sign) rest

/-- A match has some of the signs of the text, and no others. -/
def Within : Prop := ∀ before text item length, matcher before text = some (item, length) → 0 < length ∧ length ≤ text.length

/-- In front of the rest, the finder stands between two matches, and has found these items. -/
inductive Reaches (rest : List σ) : Option σ → List σ → List α → Prop
  | here {before : Option σ} : Reaches rest before [] []
  | skip {before : Option σ} {sign : σ} {front : List σ} {items : List α} (nothing : matcher before (sign :: front ++ rest) = none)
    (further : Reaches rest (some sign) front items) : Reaches rest before (sign :: front) items
  | take {before : Option σ} {run front : List σ} {item : α} {items : List α} (signs : run ≠ [])
    (matched : matcher before (run ++ front ++ rest) = some (item, run.length)) (further : Reaches rest (lastOr before run) front items) :
    Reaches rest before (run ++ front) (item :: items)

/-- A match that starts in the front runs into the rest: what was found before it, it, and how many signs of the rest it takes. -/
structure Covered (before : Option σ) (front rest : List σ) (items : List α) (item : α) (taken : Nat) : Prop where
  reached : ∃ start opening, front = start ++ opening ∧ opening ≠ [] ∧ matcher.Reaches (opening ++ rest) before start items ∧
    matcher (lastOr before start) (opening ++ rest) = some (item, opening.length + taken)
  positive : 0 < taken
  within : taken ≤ rest.length

end Matcher

section
variable {σ α : Type} {matcher : Matcher σ α} {before : Option σ} {front rest run : List σ} {items : List α} {item : α}

theorem lastOr_nil : lastOr before [] = before := rfl

theorem lastOr_cons (sign : σ) : lastOr before (sign :: front) = lastOr (some sign) front := by
  unfold lastOr
  cases front with
  | nil => rfl
  | cons other more =>
    rw [getLast?_cons_cons, getLast?_cons, Option.some_or, Option.some_or]

theorem lastOr_append : lastOr before (run ++ front) = lastOr (lastOr before run) front := by
  induction run generalizing before with
  | nil => rfl
  | cons sign more ih => rw [cons_append, lastOr_cons, ih, lastOr_cons]

namespace Matcher

theorem findFrom_found (place left : Nat) (before : Option σ) (text : List σ) :
    (matcher.findFrom place left before text).map Prod.snd = matcher.found left before text := by
  induction text generalizing place left before with
  | nil => cases left <;> rfl
  | cons sign rest ih =>
    cases left with
    | succ left => exact ih _ _ _
    | zero =>
      rw [findFrom, found]
      split
      · rw [map_cons, ih]
      · exact ih _ _ _

theorem found_left (before : Option σ) (run rest : List σ) :
    matcher.found run.length before (run ++ rest) = matcher.found 0 (lastOr before run) rest := by
  induction run generalizing before with
  | nil => rfl
  | cons sign more ih => rw [length_cons, cons_append, found, ih, lastOr_cons]

theorem found_take (signs : run ≠ []) (here : matcher before (run ++ rest) = some (item, run.length)) :
    matcher.found 0 before (run ++ rest) = item :: matcher.found 0 (lastOr before run) rest := by
  cases run with
  | nil => exact absurd rfl signs
  | cons sign more =>
    rw [cons_append] at here ⊢
    rw [found, here]
    dsimp only
    rw [length_cons, Nat.add_sub_cancel, found_left, lastOr_cons]

theorem found_skip {sign : σ} (nothing : matcher before (sign :: rest) = none) :
    matcher.found 0 before (sign :: rest) = matcher.found 0 (some sign) rest := by
  rw [found, nothing]

/-- Where the finder stands between two matches, what it finds is what it has found and what it finds from there. -/
theorem Reaches.found (reached : matcher.Reaches rest before front items) :
    matcher.found 0 before (front ++ rest) = items ++ matcher.found 0 (lastOr before front) rest := by
  induction reached with
  | here => rfl
  | skip nothing _ ih =>
    rw [cons_append] at nothing ⊢
    rw [found_skip nothing, ih, lastOr_cons]
  | take signs here _ ih =>
    rw [append_assoc] at here ⊢
    rw [found_take signs here, ih, lastOr_append, cons_append]

theorem Covered.found {taken : Nat} (covered : matcher.Covered before front rest items item taken) :
    matcher.found 0 before (front ++ rest) =
      items ++ item :: matcher.found 0 (lastOr (lastOr before front) (rest.take taken)) (rest.drop taken) := by
  obtain ⟨start, opening, rfl, signs, reached, here⟩ := covered.reached
  have whole : opening ++ rest = (opening ++ rest.take taken) ++ rest.drop taken := by
    rw [append_assoc, take_append_drop]
  have length : (opening ++ rest.take taken).length = opening.length + taken := by
    rw [length_append, length_take, Nat.min_eq_left covered.within]
  rw [append_assoc, reached.found, whole, found_take (by simp [signs]) (by rw [← whole, here, length]), lastOr_append, lastOr_append]

theorem Covered.skip {sign : σ} {taken : Nat} (nothing : matcher before (sign :: front ++ rest) = none)
    (covered : matcher.Covered (some sign) front rest items item taken) :
    matcher.Covered before (sign :: front) rest items item taken := by
  obtain ⟨start, opening, rfl, signs, reached, here⟩ := covered.reached
  refine ⟨⟨sign :: start, opening, rfl, signs, .skip ?_ reached, ?_⟩, covered.positive, covered.within⟩
  · rw [← nothing, cons_append, cons_append, append_assoc]
  · rw [lastOr_cons]
    exact here

theorem Covered.take {item' : α} {taken : Nat} (signs : run ≠ []) (matched : matcher before (run ++ front ++ rest) = some (item', run.length))
    (covered : matcher.Covered (lastOr before run) front rest items item taken) :
    matcher.Covered before (run ++ front) rest (item' :: items) item taken := by
  obtain ⟨start, opening, rfl, signs', reached, here⟩ := covered.reached
  refine ⟨⟨run ++ start, opening, (append_assoc _ _ _).symm, signs', .take signs ?_ reached, ?_⟩, covered.positive, covered.within⟩
  · rw [← matched]
    simp only [append_assoc]
  · rw [lastOr_append]
    exact here

theorem reaches_or_covered (within : matcher.Within) (before : Option σ) (front rest : List σ) :
    (∃ items, matcher.Reaches rest before front items) ∨ ∃ items item taken, matcher.Covered before front rest items item taken := by
  induction size : front.length using Nat.strongRecOn generalizing before front with
  | ind size ih =>
    subst size
    cases front with
    | nil => exact .inl ⟨[], .here⟩
    | cons sign more =>
      cases found : matcher before (sign :: more ++ rest) with
      | none =>
        rcases ih more.length (Nat.lt_succ_self _) (some sign) more rfl with ⟨items, reached⟩ | ⟨items, item, taken, covered⟩
        · exact .inl ⟨items, .skip found reached⟩
        · exact .inr ⟨items, item, taken, covered.skip found⟩
      | some matched =>
        obtain ⟨item, length⟩ := matched
        obtain ⟨positive, bounded⟩ := within _ _ _ _ found
        rcases Nat.lt_or_ge (sign :: more).length length with longer | inside
        · refine .inr ⟨[], item, length - (sign :: more).length, ⟨[], sign :: more, rfl, cons_ne_nil _ _, .here, ?_⟩, by omega, ?_⟩
          · rw [Nat.add_sub_cancel' (Nat.le_of_lt longer)]
            exact found
          · rw [length_append] at bounded
            omega
        · have whole := take_append_drop length (sign :: more)
          have signs : ((sign :: more).take length).length = length := length_take_of_le inside
          have nonempty : (sign :: more).take length ≠ [] := by
            intro none
            rw [none] at signs
            simp at signs
            omega
          have here : matcher before ((sign :: more).take length ++ (sign :: more).drop length ++ rest) =
              some (item, ((sign :: more).take length).length) := by
            rw [whole, found, signs]
          rcases ih ((sign :: more).drop length).length (by rw [length_drop]; simp at inside ⊢; omega)
            (lastOr before ((sign :: more).take length)) _ rfl with ⟨items, reached⟩ | ⟨items, item', taken, covered⟩
          · refine .inl ⟨item :: items, ?_⟩
            rw [← whole]
            exact .take nonempty here reached
          · refine .inr ⟨item :: items, item', taken, ?_⟩
            rw [← whole]
            exact covered.take nonempty here

theorem mem_findFrom_place {place left : Nat} {before : Option σ} {text : List σ} {found : Nat × α}
    (member : found ∈ matcher.findFrom place left before text) : place + left ≤ found.1 := by
  induction text generalizing place left before with
  | nil =>
    cases left <;> cases member
  | cons sign rest ih =>
    cases left with
    | succ left =>
      have later := ih member
      omega
    | zero =>
      rw [findFrom] at member
      split at member
      · rcases mem_cons.mp member with rfl | inside
        · exact Nat.le_refl _
        · have later := ih inside
          omega
      · have later := ih member
        omega

theorem mem_findFrom_start {before : Option σ} {text : List σ} {item : α} (member : (0, item) ∈ matcher.findFrom 0 0 before text) :
    ∃ length, matcher before text = some (item, length) := by
  cases text with
  | nil => cases member
  | cons sign rest =>
    rw [findFrom] at member
    split at member
    · next here =>
      rcases mem_cons.mp member with same | later
      · obtain ⟨_, rfl⟩ := Prod.mk.inj same
        exact ⟨_, here⟩
      · exact absurd (mem_findFrom_place later) (by simp)
    · exact absurd (mem_findFrom_place member) (by simp)

theorem mem_found_start (within : matcher.Within) {text : List σ} {length : Nat} (here : matcher before text = some (item, length)) :
    item ∈ matcher.found 0 before text := by
  cases text with
  | nil =>
    obtain ⟨positive, bounded⟩ := within _ _ _ _ here
    rw [length_nil] at bounded
    omega
  | cons sign rest =>
    rw [found, here]
    exact mem_cons_self

theorem Reaches.replicate {sign : σ} {number : Nat} (nothing : ∀ before text, matcher before (sign :: text) = none)
    (further : matcher.Reaches rest (lastOr before (List.replicate number sign)) front items) :
    matcher.Reaches rest before (List.replicate number sign ++ front) items := by
  induction number generalizing before with
  | zero => exact further
  | succ number ih =>
    rw [replicate_succ] at further ⊢
    rw [lastOr_cons] at further
    exact .skip (nothing _ _) (ih further)

theorem found_ne_nil_iff (within : matcher.Within) {text : List σ} :
    matcher.found 0 before text ≠ [] ↔ ∃ front rest, text = front ++ rest ∧ (matcher (lastOr before front) rest).isSome = true := by
  constructor
  · intro some
    induction text generalizing before with
    | nil => exact absurd rfl some
    | cons sign rest ih =>
      cases here : matcher before (sign :: rest) with
      | some matched => exact ⟨[], sign :: rest, rfl, by rw [lastOr_nil, here]; rfl⟩
      | none =>
        rw [found_skip here] at some
        obtain ⟨front, behind, rfl, present⟩ := ih some
        exact ⟨sign :: front, behind, rfl, by rw [lastOr_cons]; exact present⟩
  · intro ⟨front, rest, whole, present⟩ none
    obtain ⟨⟨item, length⟩, here⟩ := Option.isSome_iff_exists.mp present
    subst whole
    rcases reaches_or_covered within before front rest with ⟨items, reached⟩ | ⟨items, item', taken, covered⟩
    · rw [reached.found] at none
      exact ne_nil_of_mem (mem_found_start within here) (append_eq_nil_iff.mp none).2
    · rw [covered.found] at none
      cases (append_eq_nil_iff.mp none).2

end Matcher

end
end Workctx.Text
