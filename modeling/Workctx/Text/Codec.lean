import Mathlib.Data.UInt
import Workctx.Text.Lines

/-! Self-delimiting codes: what was written is read back, whatever follows it. -/

namespace Workctx.Text

structure Codec (α : Type) where
  write : α → Bytes
  read : Bytes → Option (α × Bytes)
  readBack : ∀ value rest, read (write value ++ rest) = some (value, rest)

namespace Codec
variable {α β : Type}

def map (code : Codec α) (into : β → α) (back : α → β) (same : ∀ value, back (into value) = value) : Codec β where
  write value := code.write (into value)
  read bytes := (code.read bytes).map fun found => (back found.1, found.2)
  readBack value rest := by rw [code.readBack, Option.map_some, same]

def pair (one : Codec α) (two : Codec β) : Codec (α × β) where
  write value := one.write value.1 ++ two.write value.2
  read bytes := (one.read bytes).bind fun first => (two.read first.2).map fun second => ((first.1, second.1), second.2)
  readBack value rest := by
    rw [List.append_assoc, one.readBack, Option.bind_some, two.readBack, Option.map_some]

def readUnary : Bytes → Option (Nat × Bytes)
  | [] => none
  | byte :: rest => if byte = 0 then some (0, rest) else (readUnary rest).map fun found => (found.1 + 1, found.2)

def nat : Codec Nat where
  write value := List.replicate value 1 ++ [0]
  read := readUnary
  readBack value rest := by
    induction value with
    | zero => rfl
    | succ value ih =>
      rw [List.replicate_succ, List.cons_append, List.cons_append, readUnary, if_neg (by decide), ih]
      rfl

def bool : Codec Bool := nat.map (fun value => if value then 1 else 0) (fun number => number == 1) (by decide)

def int : Codec Int :=
  (pair bool nat).map (fun value => (decide (value < 0), value.natAbs)) (fun found => if found.1 then -(found.2 : Int) else found.2)
    (by
      intro value
      dsimp only
      split
      · next negative => have := of_decide_eq_true negative; omega
      · next positive => have := of_decide_eq_false (Bool.not_eq_true _ ▸ positive); omega)

def option (code : Codec α) : Codec (Option α) where
  write
    | none => [0]
    | some value => 1 :: code.write value
  read
    | [] => none
    | byte :: rest => if byte = 0 then some (none, rest) else (code.read rest).map fun found => (some found.1, found.2)
  readBack value rest := by
    cases value with
    | none => rfl
    | some value =>
      rw [List.cons_append]
      dsimp only
      rw [if_neg (by decide), code.readBack]
      rfl

def readMany (code : Codec α) : Nat → Bytes → Option (List α × Bytes)
  | 0, bytes => some ([], bytes)
  | count + 1, bytes => (code.read bytes).bind fun first =>
      (readMany code count first.2).map fun others => (first.1 :: others.1, others.2)

theorem readMany_flatMap (code : Codec α) (values : List α) (rest : Bytes) :
    readMany code values.length (values.flatMap code.write ++ rest) = some (values, rest) := by
  induction values with
  | nil => rfl
  | cons value values ih =>
    rw [List.flatMap_cons, List.append_assoc, List.length_cons, readMany, code.readBack, Option.bind_some, ih]
    rfl

def list (code : Codec α) : Codec (List α) where
  write values := nat.write values.length ++ values.flatMap code.write
  read bytes := (nat.read bytes).bind fun count => readMany code count.1 count.2
  readBack values rest := by
    rw [List.append_assoc, nat.readBack, Option.bind_some, readMany_flatMap]

/-- A character as one byte, or as three behind a mark. -/
def char : Codec Char where
  write value :=
    if value.toNat < 255 then [UInt8.ofNat value.toNat]
    else [255, UInt8.ofNat value.toNat, UInt8.ofNat (value.toNat / 256), UInt8.ofNat (value.toNat / 65536)]
  read
    | [] => none
    | byte :: rest =>
      if byte = 255 then
        match rest with
        | low :: middle :: high :: rest => some (Char.ofNat (low.toNat + 256 * middle.toNat + 65536 * high.toNat), rest)
        | _ => none
      else some (Char.ofNat byte.toNat, rest)
  readBack value rest := by
    by_cases small : value.toNat < 255
    · rw [if_pos small]
      have same : (UInt8.ofNat value.toNat).toNat = value.toNat := by
        rw [UInt8.toNat_ofNat']
        omega
      have plain : UInt8.ofNat value.toNat ≠ 255 := by
        intro mark
        rw [mark] at same
        have large : (255 : UInt8).toNat = 255 := rfl
        omega
      dsimp only [List.cons_append, List.nil_append]
      rw [if_neg plain, same, Char.ofNat_toNat]
    · rw [if_neg small]
      have bound : value.toNat < 1114112 := by
        rcases value.valid with low | high
        · exact lt_trans low (by decide)
        · exact high.2
      have digits : value.toNat % 256 + 256 * (value.toNat / 256 % 256) + 65536 * (value.toNat / 65536 % 256) = value.toNat := by
        omega
      dsimp only [List.cons_append, List.nil_append]
      rw [if_pos rfl, UInt8.toNat_ofNat', UInt8.toNat_ofNat', UInt8.toNat_ofNat', digits, Char.ofNat_toNat]

def string : Codec String := (list char).map String.toList String.ofList fun _ => String.ofList_toList

end Codec
end Workctx.Text
