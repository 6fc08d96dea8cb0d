import Mathlib.Data.List.Basic

/-! JSON text as `json.dumps` writes it and `json.loads` reads it: values, the writer
with its layout, and the reader with its escapes, surrogate pairs and number forms. -/

namespace Workctx.Json

/-- A number with a fraction or an exponent keeps its text; only integers are computed with. -/
inductive Value where
  | null
  | bool (value : Bool)
  | int (value : Int)
  | float (lexeme : List Char)
  | string (value : String)
  | array (items : List Value)
  | object (members : List (String × Value))

/-! The writer. -/

/-- What `json.dumps` puts between tokens: nothing in the compact form, a newline and the
indentation of the depth in the indented form. -/
structure Layout where
  newline : Nat → List Char
  colon : List Char

def compact : Layout := ⟨fun _ => [], [':']⟩

def indented (width : Nat) : Layout := ⟨fun depth => '\n' :: List.replicate (width * depth) ' ', [':', ' ']⟩

def hexDigit (n : Nat) : Char :=
  if n < 10 then Char.ofNat ('0'.toNat + n) else Char.ofNat ('a'.toNat + (n - 10))

/-- The escapes of `ensure_ascii=False`: the quote, the backslash and the control characters. -/
def escapeChar (c : Char) : List Char :=
  if c = '"' then ['\\', '"']
  else if c = '\\' then ['\\', '\\']
  else if c = '\n' then ['\\', 'n']
  else if c = '\r' then ['\\', 'r']
  else if c = '\t' then ['\\', 't']
  else if c = Char.ofNat 12 then ['\\', 'f']
  else if c = Char.ofNat 8 then ['\\', 'b']
  else if c.toNat < 32 then ['\\', 'u', '0', '0', hexDigit (c.toNat / 16), hexDigit (c.toNat % 16)]
  else [c]

def escape (text : List Char) : List Char := text.flatMap escapeChar

def printString (text : String) : List Char := '"' :: (escape text.toList ++ ['"'])

def printInt : Int → List Char
  | .ofNat n => Nat.toDigits 10 n
  | .negSucc n => '-' :: Nat.toDigits 10 (n + 1)

mutual
def print (layout : Layout) (depth : Nat) : Value → List Char
  | .null => ['n', 'u', 'l', 'l']
  | .bool true => ['t', 'r', 'u', 'e']
  | .bool false => ['f', 'a', 'l', 's', 'e']
  | .int value => printInt value
  | .float lexeme => lexeme
  | .string value => printString value
  | .array [] => ['[', ']']
  | .array (first :: rest) => '[' :: (layout.newline (depth + 1) ++ (print layout (depth + 1) first ++
      (printElements layout (depth + 1) rest ++ (layout.newline depth ++ [']']))))
  | .object [] => ['{', '}']
  | .object ((key, first) :: rest) => '{' :: (layout.newline (depth + 1) ++ (printString key ++
      (layout.colon ++ (print layout (depth + 1) first ++
        (printMembers layout (depth + 1) rest ++ (layout.newline depth ++ ['}']))))))

/-- The elements after the first, each behind its comma. -/
def printElements (layout : Layout) (depth : Nat) : List Value → List Char
  | [] => []
  | item :: rest => ',' :: (layout.newline depth ++ (print layout depth item ++ printElements layout depth rest))

def printMembers (layout : Layout) (depth : Nat) : List (String × Value) → List Char
  | [] => []
  | (key, item) :: rest => ',' :: (layout.newline depth ++ (printString key ++ (layout.colon ++
      (print layout depth item ++ printMembers layout depth rest))))
end

/-- `json.dumps(value, ensure_ascii=False, allow_nan=False, separators=(",", ":"))`. -/
def dumpsCompact (value : Value) : List Char := print compact 0 value

/-- `json.dumps(value, ensure_ascii=False, indent=2)`. -/
def dumpsIndented (value : Value) : List Char := print (indented 2) 0 value

/-! The reader. -/

def isWhitespace (c : Char) : Bool := c = ' ' || c = '\t' || c = '\n' || c = '\r'

def skipWhitespace (text : List Char) : List Char := text.dropWhile isWhitespace

def isDigit (c : Char) : Bool := '0' ≤ c && c ≤ '9'

def hexValue (c : Char) : Option Nat :=
  if '0' ≤ c ∧ c ≤ '9' then some (c.toNat - '0'.toNat)
  else if 'a' ≤ c ∧ c ≤ 'f' then some (c.toNat - 'a'.toNat + 10)
  else if 'A' ≤ c ∧ c ≤ 'F' then some (c.toNat - 'A'.toNat + 10)
  else none

def hexValue4 (a b c d : Char) : Option Nat := do
  let a ← hexValue a
  let b ← hexValue b
  let c ← hexValue c
  let d ← hexValue d
  return ((a * 16 + b) * 16 + c) * 16 + d

def prepend (c : Char) : Option (List Char × List Char) → Option (List Char × List Char) :=
  Option.map fun scanned => (c :: scanned.1, scanned.2)

/-- The rest of a string behind its opening quote. A lone surrogate is refused here: Python
would read it, and would then fail to encode the text that holds it. -/
def scanString : List Char → Option (List Char × List Char)
  | [] => none
  | '"' :: rest => some ([], rest)
  | '\\' :: '"' :: rest => prepend '"' (scanString rest)
  | '\\' :: '\\' :: rest => prepend '\\' (scanString rest)
  | '\\' :: '/' :: rest => prepend '/' (scanString rest)
  | '\\' :: 'b' :: rest => prepend (Char.ofNat 8) (scanString rest)
  | '\\' :: 'f' :: rest => prepend (Char.ofNat 12) (scanString rest)
  | '\\' :: 'n' :: rest => prepend '\n' (scanString rest)
  | '\\' :: 'r' :: rest => prepend '\r' (scanString rest)
  | '\\' :: 't' :: rest => prepend '\t' (scanString rest)
  | '\\' :: 'u' :: a :: b :: c :: d :: rest =>
    match hexValue4 a b c d with
    | none => none
    | some code =>
      if 0xD800 ≤ code ∧ code < 0xDC00 then
        match rest with
        | '\\' :: 'u' :: e :: f :: g :: h :: rest =>
          match hexValue4 e f g h with
          | none => none
          | some low =>
            if 0xDC00 ≤ low ∧ low < 0xE000 then
              prepend (Char.ofNat (0x10000 + (code - 0xD800) * 0x400 + (low - 0xDC00))) (scanString rest)
            else none
        | _ => none
      else if 0xDC00 ≤ code ∧ code < 0xE000 then none
      else prepend (Char.ofNat code) (scanString rest)
  | '\\' :: _ => none
  | c :: rest => if c.toNat < 32 then none else prepend c (scanString rest)

def spanDigits (text : List Char) : List Char × List Char := text.span isDigit

/-- A fraction needs a digit behind its point; without one the point is not part of the number. -/
def scanFraction : List Char → List Char × List Char
  | '.' :: rest => match spanDigits rest with
    | ([], _) => ([], '.' :: rest)
    | (digits, rest) => ('.' :: digits, rest)
  | text => ([], text)

def scanExponent : List Char → List Char × List Char
  | mark :: rest =>
    if mark = 'e' ∨ mark = 'E' then
      let (sign, body) := match rest with
        | '+' :: body => (['+'], body)
        | '-' :: body => (['-'], body)
        | body => ([], body)
      match spanDigits body with
      | ([], _) => ([], mark :: rest)
      | (digits, rest) => (mark :: (sign ++ digits), rest)
    else ([], mark :: rest)
  | [] => ([], [])

/-- The integer part is zero alone or starts with another digit. -/
def scanInteger : List Char → Option (List Char × List Char)
  | '0' :: rest => some (['0'], rest)
  | text => match spanDigits text with
    | ([], _) => none
    | scanned => some scanned

def signed (negative : Bool) (n : Nat) : Int := if negative then -(n : Int) else n

def scanUnsigned (negative : Bool) (text : List Char) : Option (Value × List Char) :=
  (scanInteger text).map fun (digits, rest) =>
    let (fraction, rest) := scanFraction rest
    let (exponent, rest) := scanExponent rest
    if fraction = [] ∧ exponent = [] then (.int (signed negative (Nat.ofDigitChars 10 digits 0)), rest)
    else (.float ((if negative then ['-'] else []) ++ digits ++ fraction ++ exponent), rest)

def scanNumber : List Char → Option (Value × List Char)
  | '-' :: 'I' :: 'n' :: 'f' :: 'i' :: 'n' :: 'i' :: 't' :: 'y' :: rest => some (.float "-Infinity".toList, rest)
  | '-' :: rest => scanUnsigned true rest
  | text => scanUnsigned false text

mutual
/-- One value and the text behind it. The fuel bounds the nesting and the length; `loads`
supplies one unit for each character, and every call consumes a character. -/
def scanValue : Nat → List Char → Option (Value × List Char)
  | 0, _ => none
  | fuel + 1, text => match text with
    | 'n' :: 'u' :: 'l' :: 'l' :: rest => some (.null, rest)
    | 't' :: 'r' :: 'u' :: 'e' :: rest => some (.bool true, rest)
    | 'f' :: 'a' :: 'l' :: 's' :: 'e' :: rest => some (.bool false, rest)
    | 'N' :: 'a' :: 'N' :: rest => some (.float "NaN".toList, rest)
    | 'I' :: 'n' :: 'f' :: 'i' :: 'n' :: 'i' :: 't' :: 'y' :: rest => some (.float "Infinity".toList, rest)
    | '"' :: rest => (scanString rest).map fun (scanned, rest) => (.string (String.ofList scanned), rest)
    | '[' :: rest => match skipWhitespace rest with
      | ']' :: rest => some (.array [], rest)
      | rest => do
        let (first, rest) ← scanValue fuel rest
        let (others, rest) ← scanElements fuel (skipWhitespace rest)
        return (.array (first :: others), rest)
    | '{' :: rest => match skipWhitespace rest with
      | '}' :: rest => some (.object [], rest)
      | rest => do
        let (first, rest) ← scanMember fuel rest
        let (others, rest) ← scanMembers fuel (skipWhitespace rest)
        return (.object (first :: others), rest)
    | text => scanNumber text

/-- The elements behind the first, up to the closing bracket. -/
def scanElements : Nat → List Char → Option (List Value × List Char)
  | 0, _ => none
  | fuel + 1, text => match text with
    | ']' :: rest => some ([], rest)
    | ',' :: rest => do
      let (item, rest) ← scanValue fuel (skipWhitespace rest)
      let (others, rest) ← scanElements fuel (skipWhitespace rest)
      return (item :: others, rest)
    | _ => none

def scanMember : Nat → List Char → Option ((String × Value) × List Char)
  | 0, _ => none
  | fuel + 1, text => match text with
    | '"' :: rest => do
      let (key, rest) ← scanString rest
      match skipWhitespace rest with
      | ':' :: rest => do
        let (value, rest) ← scanValue fuel (skipWhitespace rest)
        return ((String.ofList key, value), rest)
      | _ => none
    | _ => none

def scanMembers : Nat → List Char → Option (List (String × Value) × List Char)
  | 0, _ => none
  | fuel + 1, text => match text with
    | '}' :: rest => some ([], rest)
    | ',' :: rest => do
      let (item, rest) ← scanMember fuel (skipWhitespace rest)
      let (others, rest) ← scanMembers fuel (skipWhitespace rest)
      return (item :: others, rest)
    | _ => none
end

/-- `json.loads` without an object hook: whitespace, one value, whitespace, the end. -/
def loads (text : List Char) : Option Value :=
  match scanValue (text.length + 1) (skipWhitespace text) with
  | some (value, rest) => if skipWhitespace rest = [] then some value else none
  | none => none

mutual
/-- `_reject_duplicate_object_keys` as the object hook: it sees every object of the text. -/
def Value.noDuplicateObjectKeys : Value → Bool
  | .array items => elementsNoDuplicateObjectKeys items
  | .object members => decide ((members.map Prod.fst).Nodup) && membersNoDuplicateObjectKeys members
  | _ => true

def elementsNoDuplicateObjectKeys : List Value → Bool
  | [] => true
  | item :: rest => item.noDuplicateObjectKeys && elementsNoDuplicateObjectKeys rest

def membersNoDuplicateObjectKeys : List (String × Value) → Bool
  | [] => true
  | (_, item) :: rest => item.noDuplicateObjectKeys && membersNoDuplicateObjectKeys rest
end

def loadsDistinct (text : List Char) : Option Value :=
  (loads text).bind fun value => if value.noDuplicateObjectKeys then some value else none

end Workctx.Json
