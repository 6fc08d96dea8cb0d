import Mathlib.Data.List.Basic

/-! A text that is read in chunks: each window is a chunk behind the last signs of what was read before
it, and every short part of the text lies in a window. -/

namespace Workctx.Text
open List
variable {σ : Type}

def lastSigns (most : Nat) (text : List σ) : List σ := text.drop (text.length - most)

/-- The windows of the chunks behind what is left of the chunks before. -/
def windowsFrom (overlap : Nat) : (tail : List σ) → List (List σ) → List (List σ)
  | _, [] => []
  | tail, chunk :: rest => (tail ++ chunk) :: windowsFrom overlap (lastSigns overlap (tail ++ chunk)) rest

/-- The parts that are read of a content, each of them as long as the size where there is so much; at most so many reads. -/
def readChunks {α : Type} (size : Nat) : (reads : Nat) → List α → List (List α)
  | 0, _ => []
  | reads + 1, content =>
    match content.take size with
    | [] => []
    | first :: more => (first :: more) :: readChunks size reads (content.drop size)

theorem lastSigns_nil (most : Nat) : lastSigns most ([] : List σ) = [] := drop_nil

theorem lastSigns_append_last (most : Nat) (done chunk : List σ) :
    lastSigns most (lastSigns most done ++ chunk) = lastSigns most (done ++ chunk) := by
  unfold lastSigns
  rw [← drop_append_of_le_length (Nat.sub_le _ _), drop_drop, length_drop, length_append]
  congr 1
  omega

/-- A part of the text that is not read yet, and not longer than the overlap, lies in a window with some of what is around it. -/
theorem windowsFrom_covers {overlap : Nat} {done front part back : List σ} {chunks : List (List σ)}
    (whole : done ++ chunks.flatten = front ++ part ++ back) (short : part.length ≤ overlap)
    (unread : done.length < front.length + part.length) :
    ∃ cut behind, cut ++ part ++ behind ∈ windowsFrom overlap (lastSigns overlap done) chunks ∧ cut <:+ front ∧ behind <+: back := by
  induction chunks generalizing done with
  | nil =>
    have lengths := congrArg List.length whole
    simp at lengths
    omega
  | cons chunk rest ih =>
    rw [flatten_cons, ← append_assoc] at whole
    rcases Nat.lt_or_ge (done ++ chunk).length (front.length + part.length) with later | now
    · obtain ⟨cut, behind, member, suffix, initial⟩ := ih whole later
      rw [← lastSigns_append_last] at member
      exact ⟨cut, behind, mem_cons_of_mem _ member, suffix, initial⟩
    · -- The part ends in this window, and begins in it as it is short.
      obtain ⟨behind, read, rfl⟩ : ∃ behind, done ++ chunk = front ++ part ++ behind ∧ back = behind ++ rest.flatten := by
        have initial : front ++ part <+: done ++ chunk := by
          refine prefix_of_prefix_length_le (prefix_append _ back) ?_ (by rwa [length_append])
          exact ⟨rest.flatten, whole⟩
        obtain ⟨behind, read⟩ := initial
        rw [← read, append_assoc] at whole
        exact ⟨behind, read.symm, (append_cancel_left whole).symm⟩
      have split := take_append_drop (done.length - overlap) done
      obtain ⟨cut, opens⟩ : done.take (done.length - overlap) <+: front := by
        have earlier : done.take (done.length - overlap) <+: front ++ part ++ behind :=
          ⟨done.drop (done.length - overlap) ++ chunk, by rw [← append_assoc, split, read]⟩
        rw [append_assoc] at earlier
        refine prefix_of_prefix_length_le earlier (prefix_append _ _) ?_
        rw [length_take]
        omega
      refine ⟨cut, behind, ?_, ⟨_, opens⟩, prefix_append _ _⟩
      have window : lastSigns overlap done ++ chunk = cut ++ part ++ behind := by
        rw [← split, ← opens, append_assoc, append_assoc, append_assoc] at read
        rw [append_assoc]
        exact append_cancel_left read
      rw [windowsFrom, window]
      exact mem_cons_self

theorem readChunks_append {α : Type} {size reads : Nat} {chunk rest : List α} (full : chunk.length = size) (signs : chunk ≠ []) :
    readChunks size (reads + 1) (chunk ++ rest) = chunk :: readChunks size reads rest := by
  rw [readChunks, ← full, take_left, drop_left]
  cases chunk with
  | nil => exact absurd rfl signs
  | cons first more => rfl

theorem readChunks_nil {α : Type} (size reads : Nat) : readChunks size reads ([] : List α) = [] := by
  cases reads with
  | zero => rfl
  | succ reads => rw [readChunks, take_nil]

theorem readChunks_last {α : Type} {size reads : Nat} {chunk : List α} (short : chunk.length ≤ size) (signs : chunk ≠ []) :
    readChunks size (reads + 1) chunk = [chunk] := by
  rw [readChunks, take_of_length_le short, drop_eq_nil_of_le short, readChunks_nil]
  cases chunk with
  | nil => exact absurd rfl signs
  | cons first more => rfl

theorem readChunks_flatten {α : Type} {size reads : Nat} {content : List α} (positive : 0 < size) (enough : content.length ≤ reads) :
    (readChunks size reads content).flatten = content := by
  induction reads generalizing content with
  | zero =>
    obtain rfl := length_eq_zero_iff.mp (Nat.le_zero.mp enough)
    rfl
  | succ reads ih =>
    cases content with
    | nil => rw [readChunks, take_nil]; rfl
    | cons first rest =>
      have split := take_append_drop size (first :: rest)
      have shorter : ((first :: rest).drop size).length ≤ reads := by
        rw [length_drop]
        simp only [length_cons] at enough ⊢
        omega
      rw [readChunks]
      split
      · next none =>
        rw [take_eq_nil_iff] at none
        rcases none with zero | empty
        · omega
        · cases empty
      · next one more taken =>
        rw [flatten_cons, ih shorter, ← taken, split]

end Workctx.Text
