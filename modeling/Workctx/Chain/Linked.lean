import Mathlib.Data.List.Basic
import Mathlib.Data.List.Induction

/-! Hash chains over any type of entries: each entry names the hash of the one before it,
and the first one names a fixed start. -/

namespace Workctx.Chain
variable {ε δ : Type} (previous hash : ε → δ)

def head (start : δ) : List ε → δ
  | [] => start
  | entry :: rest => head (hash entry) rest

def Linked (start : δ) : List ε → Prop
  | [] => True
  | entry :: rest => previous entry = start ∧ Linked (hash entry) rest

instance decidableLinked [DecidableEq δ] (start : δ) :
    (entries : List ε) → Decidable (Linked previous hash start entries)
  | [] => isTrue trivial
  | entry :: rest =>
    have := decidableLinked (hash entry) rest
    inferInstanceAs (Decidable (previous entry = start ∧ Linked previous hash (hash entry) rest))

theorem head_append (start : δ) (front back : List ε) :
    head hash start (front ++ back) = head hash (head hash start front) back := by
  induction front generalizing start with
  | nil => rfl
  | cons entry rest ih => exact ih (hash entry)

@[simp] theorem head_concat (start : δ) (front : List ε) (last : ε) :
    head hash start (front ++ [last]) = hash last := by rw [head_append]; rfl

theorem linked_append (start : δ) (front back : List ε) :
    Linked previous hash start (front ++ back) ↔
      Linked previous hash start front ∧ Linked previous hash (head hash start front) back := by
  induction front generalizing start with
  | nil => exact (and_iff_right trivial).symm
  | cons entry rest ih =>
    rw [List.cons_append, Linked, ih, Linked, and_assoc]
    rfl

/-- One more entry continues a chain exactly when it names the head. -/
theorem linked_concat (start : δ) (front : List ε) (last : ε) :
    Linked previous hash start (front ++ [last]) ↔
      Linked previous hash start front ∧ previous last = head hash start front := by
  rw [linked_append, Linked]
  exact and_congr_right fun _ => and_iff_left trivial

/-- With hashes that tell the entries apart and never meet the start, the head alone
determines a chain. -/
theorem linked_unique {start : δ} {one two : List ε} (oneLinked : Linked previous hash start one)
    (twoLinked : Linked previous hash start two)
    (apart : ∀ first ∈ one, ∀ second ∈ two, hash first = hash second → first = second)
    (oneFresh : ∀ entry ∈ one, hash entry ≠ start) (twoFresh : ∀ entry ∈ two, hash entry ≠ start)
    (same : head hash start one = head hash start two) : one = two := by
  induction one using List.reverseRecOn generalizing two with
  | nil =>
    rcases List.eq_nil_or_concat' two with rfl | ⟨front, last, rfl⟩
    · rfl
    · rw [head_concat] at same
      exact absurd same.symm (twoFresh last (by simp))
  | append_singleton front last ih =>
    rcases List.eq_nil_or_concat' two with rfl | ⟨front', last', rfl⟩
    · rw [head_concat] at same
      exact absurd same (oneFresh last (by simp))
    · rw [head_concat, head_concat] at same
      obtain rfl : last = last' := apart last (by simp) last' (by simp) same
      rw [linked_concat] at oneLinked twoLinked
      have before : head hash start front = head hash start front' := oneLinked.2.symm.trans twoLinked.2
      rw [ih oneLinked.1 twoLinked.1 (fun first member second other => apart first (by simp [member]) second (by simp [other]))
        (fun entry member => oneFresh entry (by simp [member])) (fun entry member => twoFresh entry (by simp [member]))
        before]

end Workctx.Chain
