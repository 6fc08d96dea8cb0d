import Workctx.Text.Lines

/-! Byte strings behind their lengths: a sequence of them is read back from its bytes. -/

namespace Workctx.Text
open List

/-- `int.to_bytes(width, "big")`; none where the number is too large. -/
def bigEndian : Nat → Nat → Option Bytes
  | 0, number => if number = 0 then some [] else none
  | width + 1, number => (bigEndian width (number / 256)).map fun bytes => bytes ++ [UInt8.ofNat (number % 256)]

def ofBigEndian (bytes : Bytes) : Nat := bytes.foldl (fun number byte => number * 256 + byte.toNat) 0

theorem bigEndian_some {width number : Nat} {bytes : Bytes} (written : bigEndian width number = some bytes) :
    bytes.length = width ∧ ofBigEndian bytes = number := by
  induction width generalizing number bytes with
  | zero =>
    unfold bigEndian at written
    split at written
    · next zero =>
      rw [← Option.some.inj written]
      exact ⟨rfl, zero.symm⟩
    · cases written
  | succ width ih =>
    obtain ⟨front, before, rfl⟩ := Option.map_eq_some_iff.mp written
    obtain ⟨length, value⟩ := ih before
    have last : (UInt8.ofNat (number % 256)).toNat = number % 256 :=
      UInt8.toNat_ofNat_of_lt' (Nat.mod_lt number (by decide))
    unfold ofBigEndian at value ⊢
    constructor
    · rw [length_append, length, length_singleton]
    · rw [foldl_append, value, foldl_cons, foldl_nil, last]
      omega

def frame (content : Bytes) : Option Bytes := (bigEndian 8 content.length).map fun length => length ++ content

theorem frame_some {content bytes : Bytes} (framed : frame content = some bytes) :
    ∃ length : Bytes, length.length = 8 ∧ ofBigEndian length = content.length ∧ bytes = length ++ content := by
  obtain ⟨length, written, same⟩ := Option.map_eq_some_iff.mp framed
  obtain ⟨eight, value⟩ := bigEndian_some written
  exact ⟨length, eight, value, same.symm⟩

theorem frame_append {content other bytes bytes' rest rest' : Bytes} (one : frame content = some bytes) (two : frame other = some bytes')
    (same : bytes ++ rest = bytes' ++ rest') : content = other ∧ rest = rest' := by
  obtain ⟨length, eight, value, rfl⟩ := frame_some one
  obtain ⟨length', eight', value', rfl⟩ := frame_some two
  rw [append_assoc, append_assoc] at same
  obtain ⟨equal, behind⟩ := append_inj same (eight.trans eight'.symm)
  have sizes : content.length = other.length := by rw [← value, ← value', equal]
  exact append_inj behind sizes

theorem frame_ne_nil {content bytes : Bytes} (framed : frame content = some bytes) : bytes ≠ [] := by
  obtain ⟨length, eight, _, rfl⟩ := frame_some framed
  intro empty
  rw [(append_eq_nil_iff.mp empty).1] at eight
  cases eight

/-- A sequence of items is read back from the bytes of its items, where what follows the bytes of an item is never taken for a part of
them. -/
theorem parts_injective {α : Type} {write : α → Option Bytes} (present : ∀ item bytes, write item = some bytes → bytes ≠ [])
    (apart : ∀ one two bytes bytes' rest rest', write one = some bytes → write two = some bytes' → bytes ++ rest = bytes' ++ rest' →
      one = two ∧ rest = rest')
    {one two : List α} {parts parts' : List Bytes} (first : one.mapM write = some parts) (second : two.mapM write = some parts')
    (same : parts.flatten = parts'.flatten) : one = two := by
  induction one generalizing two parts parts' with
  | nil =>
    rw [mapM_nil] at first
    cases first
    cases two with
    | nil => rfl
    | cons item rest =>
      rw [mapM_cons] at second
      obtain ⟨bytes, written, second⟩ := Option.bind_eq_some_iff.mp second
      obtain ⟨others, _, whole⟩ := Option.bind_eq_some_iff.mp second
      cases whole
      exact absurd (append_eq_nil_iff.mp same.symm).1 (present item bytes written)
  | cons item rest ih =>
    rw [mapM_cons] at first
    obtain ⟨bytes, written, first⟩ := Option.bind_eq_some_iff.mp first
    obtain ⟨others, later, whole⟩ := Option.bind_eq_some_iff.mp first
    cases whole
    cases two with
    | nil =>
      rw [mapM_nil] at second
      cases second
      exact absurd (append_eq_nil_iff.mp same).1 (present item bytes written)
    | cons item' rest' =>
      rw [mapM_cons] at second
      obtain ⟨bytes', written', second⟩ := Option.bind_eq_some_iff.mp second
      obtain ⟨others', later', whole⟩ := Option.bind_eq_some_iff.mp second
      cases whole
      rw [flatten_cons, flatten_cons] at same
      obtain ⟨rfl, behind⟩ := apart item item' bytes bytes' _ _ written written' same
      rw [ih later later' behind]

end Workctx.Text
