import Mathlib.Data.List.Basic

/-! Bytes of text: strict UTF-8, and the cutting of a byte string into lines. -/

namespace Workctx.Text
open List

abbrev Bytes := List UInt8

def encodeUtf8 (text : List Char) : Bytes := text.flatMap String.utf8EncodeChar

/-- Strict decoding: overlong forms, surrogates and stray bytes have no text. -/
def decodeUtf8 (bytes : Bytes) : Option (List Char) := bytes.toByteArray.utf8Decode?.map Array.toList

def linefeed : UInt8 := 10

def joinLines (lines : List Bytes) : Bytes := lines.flatMap fun line => line ++ [linefeed]

@[simp] theorem encodeUtf8_append (front back : List Char) :
    encodeUtf8 (front ++ back) = encodeUtf8 front ++ encodeUtf8 back := flatMap_append

theorem decodeUtf8_encodeUtf8 (text : List Char) : decodeUtf8 (encodeUtf8 text) = some text := by
  have decoded : text.utf8Encode.utf8Decode? = some text.toArray := utf8Decode?_utf8Encode
  rw [List.utf8Encode] at decoded
  rw [decodeUtf8, encodeUtf8, decoded]
  rfl

theorem encodeUtf8_decodeUtf8 {bytes : Bytes} {text : List Char} (decoded : decodeUtf8 bytes = some text) : encodeUtf8 text = bytes := by
  rw [decodeUtf8, Option.map_eq_some_iff] at decoded
  obtain ⟨chars, found, rfl⟩ := decoded
  have held : bytes.toByteArray.utf8Decode?.isSome = true := by rw [found]; rfl
  have whole := @ByteArray.utf8Encode_get_utf8Decode? bytes.toByteArray held
  have same : bytes.toByteArray.utf8Decode?.get held = chars := by
    rw [Option.get_of_eq_some held found]
  rw [same] at whole
  have lists : encodeUtf8 chars.toList = chars.toList.utf8Encode.data.toList := by
    rw [List.utf8Encode, encodeUtf8]
    simp
  rw [lists, whole]
  simp

theorem encodeUtf8_injective {one two : List Char} (same : encodeUtf8 one = encodeUtf8 two) : one = two := by
  have decoded := decodeUtf8_encodeUtf8 one
  rw [same, decodeUtf8_encodeUtf8] at decoded
  exact (Option.some.inj decoded).symm

theorem char_of_ascii_mem {c : Char} {byte : UInt8} (ascii : byte.toNat < 128)
    (member : byte ∈ String.utf8EncodeChar c) : c.toNat = byte.toNat := by
  have bound : c.val.toNat < 1114112 := by
    have valid := c.valid
    rcases valid with small | ⟨_, small⟩ <;> omega
  simp only [String.utf8EncodeChar] at member
  show c.val.toNat = byte.toNat
  split at member
  · next small =>
    rw [mem_singleton] at member
    rw [member, UInt8.toNat_ofNat']
    omega
  split at member
  · simp only [mem_cons, not_mem_nil, or_false] at member
    rcases member with rfl | rfl <;> rw [UInt8.toNat_ofNat'] at ascii <;> omega
  split at member
  · simp only [mem_cons, not_mem_nil, or_false] at member
    rcases member with rfl | rfl | rfl <;> rw [UInt8.toNat_ofNat'] at ascii <;> omega
  · simp only [mem_cons, not_mem_nil, or_false] at member
    rcases member with rfl | rfl | rfl | rfl <;> rw [UInt8.toNat_ofNat'] at ascii <;> omega

theorem not_mem_encodeUtf8 {text : List Char} {byte : UInt8} (ascii : byte.toNat < 128)
    (absent : ∀ c ∈ text, c.toNat ≠ byte.toNat) : byte ∉ encodeUtf8 text := by
  intro member
  obtain ⟨c, inside, encoded⟩ := mem_flatMap.mp member
  exact absent c inside (char_of_ascii_mem ascii encoded)

theorem joinLines_eq_intercalate (lines : List Bytes) (some : lines ≠ []) :
    joinLines lines = [linefeed].intercalate lines ++ [linefeed] := by
  induction lines with
  | nil => exact absurd rfl some
  | cons line rest ih =>
    cases rest with
    | nil => simp [joinLines, List.intercalate]
    | cons next more =>
      have later := ih (cons_ne_nil next more)
      rw [joinLines] at later
      rw [joinLines, flatMap_cons, later]
      simp [List.intercalate]

theorem splitOn_joinLines {lines : List Bytes} (some : lines ≠ []) (clean : ∀ line ∈ lines, linefeed ∉ line) :
    (joinLines lines).dropLast.splitOn linefeed = lines := by
  rw [joinLines_eq_intercalate lines some, dropLast_concat]
  exact splitOn_intercalate linefeed clean some

theorem joinLines_splitOn {bytes : Bytes} (ended : bytes.getLast? = some linefeed) :
    joinLines (bytes.dropLast.splitOn linefeed) = bytes := by
  rw [joinLines_eq_intercalate _ (splitOn_ne_nil _ _), intercalate_splitOn]
  obtain ⟨front, rfl⟩ := getLast?_eq_some_iff.mp ended
  rw [dropLast_concat]

theorem getLast?_joinLines {lines : List Bytes} (some : lines ≠ []) :
    (joinLines lines).getLast? = Option.some linefeed := by
  rw [joinLines_eq_intercalate lines some, getLast?_concat]

theorem joinLines_eq_flatMap_encodeUtf8 {α : Type} (items : List α) (text : α → List Char) :
    joinLines (items.map fun item => encodeUtf8 (text item)) =
      encodeUtf8 (items.flatMap fun item => text item ++ ['\n']) := by
  induction items with
  | nil => rfl
  | cons item rest ih =>
    rw [map_cons, flatMap_cons, encodeUtf8_append, ← ih, encodeUtf8_append]
    rfl

end Workctx.Text
