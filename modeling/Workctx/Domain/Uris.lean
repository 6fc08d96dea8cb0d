import Workctx.Domain.Entities
import Workctx.Text.Lines

/-! The texts of URIs in a context. -/

namespace Workctx.Domain
open Workctx.Text List

def upperHexDigit (n : Nat) : Char := if n < 10 then Char.ofNat ('0'.toNat + n) else Char.ofNat ('A'.toNat + (n - 10))

/-- The characters that `quote(text, safe="-._~")` leaves. -/
def isUnreserved (c : Char) : Bool := c.isAlphanum || c == '-' || c == '.' || c == '_' || c == '~'

def quoteByte (byte : UInt8) : List Char :=
  if byte.toNat < 128 && isUnreserved (Char.ofNat byte.toNat) then [Char.ofNat byte.toNat]
  else ['%', upperHexDigit (byte.toNat / 16), upperHexDigit (byte.toNat % 16)]

/-- `quote(text, safe="-._~")` -/
def quote (text : String) : List Char := (encodeUtf8 text.toList).flatMap quoteByte

/-- `str` of a `WorkctxUri` -/
def uriText (uri : WorkctxUri) : String :=
  "workctx://" ++ uri.contextId ++ "/" ++ uri.entityType ++ "/" ++ String.ofList (quote uri.entityId)

/-- `WorkctxUri`: context ids and entity types are slugs, and an entity id is one segment of a path. -/
def validUri (uri : WorkctxUri) : Bool :=
  matchesSlug uri.contextId.toList && matchesSlug uri.entityType.toList && uri.entityId != "" && uri.entityId != "." &&
    uri.entityId != ".." && !uri.entityId.toList.any fun c => c == '/' || c == '\\'

/-! Texts of different URIs are different. -/

theorem isUnreserved_plain {c : Char} (unreserved : isUnreserved c = true) : c ≠ '%' ∧ c ≠ '/' := by
  constructor
  · intro same
    subst same
    exact absurd unreserved (by decide)
  · intro same
    subst same
    exact absurd unreserved (by decide)

theorem upperHexDigit_injective : ∀ m < 16, ∀ n < 16, upperHexDigit m = upperHexDigit n → m = n := by decide

theorem upperHexDigit_plain : ∀ n < 16, upperHexDigit n ≠ '/' := by decide

theorem byte_char {byte : UInt8} (ascii : byte.toNat < 128) : (Char.ofNat byte.toNat).toNat = byte.toNat := by
  have valid : byte.toNat.isValidChar := .inl (by omega)
  unfold Char.ofNat
  rw [dif_pos valid]
  rfl

/-- The escapes of the bytes are told apart, whatever follows them. -/
theorem quoteByte_append {one two : UInt8} {rest others : List Char} (same : quoteByte one ++ rest = quoteByte two ++ others) :
    one = two ∧ rest = others := by
  have small : ∀ byte : UInt8, byte.toNat / 16 < 16 ∧ byte.toNat % 16 < 16 := by
    intro byte
    have := byte.toNat_lt
    omega
  unfold quoteByte at same
  split at same
  · next plain =>
    rw [Bool.and_eq_true, decide_eq_true_iff] at plain
    split at same
    · next other =>
      rw [Bool.and_eq_true, decide_eq_true_iff] at other
      obtain ⟨head, tail⟩ := List.cons.inj same
      refine ⟨UInt8.toNat_inj.mp ?_, tail⟩
      rw [← byte_char plain.1, head, byte_char other.1]
    · exact absurd (List.cons.inj same).1 (isUnreserved_plain plain.2).1
  · split at same
    · next other =>
      rw [Bool.and_eq_true, decide_eq_true_iff] at other
      exact absurd (List.cons.inj same).1.symm (isUnreserved_plain other.2).1
    · simp only [cons_append, nil_append, List.cons.injEq, true_and] at same
      obtain ⟨high, low, tail⟩ := same
      have first := upperHexDigit_injective _ (small one).1 _ (small two).1 high
      have second := upperHexDigit_injective _ (small one).2 _ (small two).2 low
      refine ⟨UInt8.toNat_inj.mp ?_, tail⟩
      omega

theorem quoteBytes_injective {one two : Bytes} (same : one.flatMap quoteByte = two.flatMap quoteByte) : one = two := by
  have filled : ∀ byte, quoteByte byte ≠ [] := by
    intro byte
    unfold quoteByte
    split <;> simp
  induction one generalizing two with
  | nil =>
    cases two with
    | nil => rfl
    | cons byte rest =>
      rw [flatMap_nil, flatMap_cons] at same
      exact absurd (append_eq_nil_iff.mp same.symm).1 (filled byte)
  | cons byte rest ih =>
    cases two with
    | nil =>
      rw [flatMap_nil, flatMap_cons] at same
      exact absurd (append_eq_nil_iff.mp same).1 (filled byte)
    | cons other others =>
      rw [flatMap_cons, flatMap_cons] at same
      obtain ⟨equal, tail⟩ := quoteByte_append same
      rw [equal, ih tail]

theorem quote_injective {one two : String} (same : quote one = quote two) : one = two :=
  String.toList_inj.mp (encodeUtf8_injective (quoteBytes_injective same))

theorem slash_not_mem_quote {text : String} : '/' ∉ quote text := by
  intro member
  obtain ⟨byte, _, inside⟩ := mem_flatMap.mp member
  have small : byte.toNat / 16 < 16 ∧ byte.toNat % 16 < 16 := by
    have := byte.toNat_lt
    omega
  unfold quoteByte at inside
  split at inside
  · next plain =>
    rw [Bool.and_eq_true] at plain
    exact (isUnreserved_plain plain.2).2 (mem_singleton.mp inside).symm
  · simp only [mem_cons, not_mem_nil, or_false] at inside
    rcases inside with escape | high | low
    · exact absurd escape (by decide)
    · exact upperHexDigit_plain _ small.1 high.symm
    · exact upperHexDigit_plain _ small.2 low.symm

theorem lastSegment_inj {front back one two : List Char} (plain : '/' ∉ one) (also : '/' ∉ two)
    (same : front ++ '/' :: one = back ++ '/' :: two) : one = two := by
  have reversed := congrArg (fun text => (List.reverse text).takeWhile fun c => c != '/') same
  have segment : ∀ {start tail : List Char}, '/' ∉ tail → (start ++ '/' :: tail).reverse.takeWhile (fun c => c != '/') = tail.reverse := by
    intro start tail absent
    have kept : ∀ c ∈ tail.reverse, (fun c : Char => c != '/') c = true := by
      intro c member
      refine bne_iff_ne.mpr fun equal => absent ?_
      rw [← equal]
      exact mem_reverse.mp member
    rw [reverse_append, reverse_cons, append_assoc, takeWhile_append_of_pos kept]
    simp
  rw [segment plain, segment also] at reversed
  exact reverse_inj.mp reversed

theorem uriText_entityId {one two : WorkctxUri} (same : uriText one = uriText two) : one.entityId = two.entityId := by
  have lists : ("workctx://" ++ one.contextId ++ "/" ++ one.entityType).toList ++ '/' :: quote one.entityId =
      ("workctx://" ++ two.contextId ++ "/" ++ two.entityType).toList ++ '/' :: quote two.entityId := by
    have texts := congrArg String.toList same
    unfold uriText at texts
    simpa [String.toList_append] using texts
  exact quote_injective (lastSegment_inj slash_not_mem_quote slash_not_mem_quote lists)

/-! Reading the texts back. -/

def hexValue (c : Char) : Option Nat :=
  if '0' ≤ c && c ≤ '9' then some (c.toNat - '0'.toNat)
  else if 'A' ≤ c && c ≤ 'F' then some (c.toNat - 'A'.toNat + 10)
  else if 'a' ≤ c && c ≤ 'f' then some (c.toNat - 'a'.toNat + 10)
  else none

/-- The bytes of a percent-encoded text; none for a percent sign without two digits. -/
def unquoteBytes : List Char → Option Bytes
  | [] => some []
  | c :: rest =>
    if c = '%' then
      match rest with
      | high :: low :: rest => do
        let first ← hexValue high
        let second ← hexValue low
        let bytes ← unquoteBytes rest
        some (UInt8.ofNat (first * 16 + second) :: bytes)
      | _ => none
    else do
      let bytes ← unquoteBytes rest
      some (String.utf8EncodeChar c ++ bytes)

/-- `unquote(text, errors="strict")` -/
def unquote (text : List Char) : Option String := ((unquoteBytes text).bind decodeUtf8).map String.ofList

/-- `WorkctxUri.parse` of a text without parameters, query and fragment. -/
def parseUriText (text : String) : Option WorkctxUri :=
  match text.toList.splitOn '/' with
  | [scheme, [], contextId, entityType, entityId] =>
    if scheme = "workctx:".toList then
      ((unquote entityId).map fun id => ⟨String.ofList contextId, String.ofList entityType, id⟩).filter validUri
    else none
  | _ => none

theorem hexValue_upperHexDigit : ∀ n < 16, hexValue (upperHexDigit n) = some n := by decide

theorem utf8EncodeChar_byte {byte : UInt8} (ascii : byte.toNat < 128) : String.utf8EncodeChar (Char.ofNat byte.toNat) = [byte] := by
  have small : (Char.ofNat byte.toNat).val.toNat = byte.toNat := byte_char ascii
  unfold String.utf8EncodeChar
  dsimp only
  rw [small, if_pos (by omega)]
  simp

theorem unquoteBytes_quoteByte (byte : UInt8) (rest : List Char) :
    unquoteBytes (quoteByte byte ++ rest) = (unquoteBytes rest).map (byte :: ·) := by
  unfold quoteByte
  split
  · next plain =>
    rw [Bool.and_eq_true, decide_eq_true_iff] at plain
    rw [singleton_append, unquoteBytes.eq_def]
    dsimp only
    rw [if_neg (isUnreserved_plain plain.2).1, utf8EncodeChar_byte plain.1]
    cases unquoteBytes rest <;> rfl
  · have small : byte.toNat / 16 < 16 ∧ byte.toNat % 16 < 16 := by
      have := byte.toNat_lt
      omega
    have whole : byte.toNat / 16 * 16 + byte.toNat % 16 = byte.toNat := by omega
    rw [cons_append, cons_append, cons_append, nil_append, unquoteBytes, if_pos rfl]
    simp only [hexValue_upperHexDigit _ small.1, hexValue_upperHexDigit _ small.2, Option.bind_eq_bind, Option.bind_some, whole,
      UInt8.ofNat_toNat]
    cases unquoteBytes rest <;> rfl

theorem unquoteBytes_quote (bytes : Bytes) : unquoteBytes (bytes.flatMap quoteByte) = some bytes := by
  induction bytes with
  | nil => rfl
  | cons byte rest ih => rw [flatMap_cons, unquoteBytes_quoteByte, ih, Option.map_some]

theorem unquote_quote (text : String) : unquote (quote text) = some text := by
  unfold unquote quote
  rw [unquoteBytes_quote, Option.bind_some, decodeUtf8_encodeUtf8, Option.map_some, String.ofList_toList]

theorem slash_not_mem_slug {text : List Char} (slug : matchesSlug text = true) : '/' ∉ text := by
  intro member
  exact absurd ((matchesSlug_chars slug).1 '/' member) (by decide)

theorem parseUriText_uriText {uri : WorkctxUri} (valid : validUri uri = true) : parseUriText (uriText uri) = some uri := by
  have kept := valid
  unfold validUri at kept
  simp only [Bool.and_eq_true] at kept
  have context := slash_not_mem_slug kept.1.1.1.1.1
  have type := slash_not_mem_slug kept.1.1.1.1.2
  have parts : (uriText uri).toList = ['/'].intercalate
      ["workctx:".toList, [], uri.contextId.toList, uri.entityType.toList, quote uri.entityId] := by
    unfold uriText
    simp [String.toList_append, List.intercalate]
  have clean : ∀ part ∈ ["workctx:".toList, [], uri.contextId.toList, uri.entityType.toList, quote uri.entityId], '/' ∉ part := by
    simp only [forall_mem_cons, not_mem_nil, not_false_eq_true, true_and, IsEmpty.forall_iff, implies_true, and_true]
    exact ⟨by decide, context, type, slash_not_mem_quote⟩
  unfold parseUriText
  rw [parts, splitOn_intercalate '/' clean (by simp)]
  dsimp only
  rw [if_pos rfl, unquote_quote, Option.map_some, String.ofList_toList, String.ofList_toList]
  exact Option.filter_eq_some_iff.mpr ⟨rfl, valid⟩

theorem parseUriText_valid {text : String} {uri : WorkctxUri} (read : parseUriText text = some uri) : validUri uri = true := by
  unfold parseUriText at read
  split at read
  · split at read
    · exact (Option.filter_eq_some_iff.mp read).2
    · exact absurd read (by simp)
  · exact absurd read (by simp)

end Workctx.Domain
