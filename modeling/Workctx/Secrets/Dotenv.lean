import Workctx.Domain.Checks
import Workctx.Services.World
import Workctx.Text.Lines
import Workctx.Text.Newlines

/-! The import of a dotenv file. -/

namespace Workctx.Secrets
open Workctx.Text Workctx.Domain Workctx.Services

structure SecretRef where
  name : List Char
  short : name.length ≤ 64
  slug : matchesSlug name = true

/-- One normalized secret name and its value -/
structure DotenvEntry where
  ref : SecretRef
  value : List Char

inductive DotenvError where
  /-- `SecretImportError`: the file could not be read safely. -/
  | unreadable
  /-- `DotenvParseError` with the number of the line -/
  | malformed (line : Nat)
deriving DecidableEq

/-- `[A-Za-z0-9_]` -/
def isNameSign (c : Char) : Bool := ('A' ≤ c && c ≤ 'Z') || ('a' ≤ c && c ≤ 'z') || isAsciiDigit c || c == '_'

/-- `_DOTENV_NAME` -/
def isDotenvName : List Char → Bool
  | [] => false
  | c :: rest => isNameSign c && !isAsciiDigit c && rest.all isNameSign

def kebab (rawName : List Char) : List Char := rawName.map fun c => if c = '_' then '-' else lowerAscii c

def normalizeName (rawName : List Char) (number : Nat) : Except DotenvError SecretRef :=
  if isDotenvName rawName then
    if valid : (kebab rawName).length ≤ 64 ∧ matchesSlug (kebab rawName) = true then .ok ⟨kebab rawName, valid.1, valid.2⟩
    else .error (.malformed number)
  else .error (.malformed number)

/-- `_DOUBLE_QUOTE_ESCAPES` -/
def doubleQuoteEscape : Char → Option Char
  | '\\' => some '\\'
  | '"' => some '"'
  | 'n' => some '\n'
  | 'r' => some '\r'
  | 't' => some '\t'
  | _ => none

/-- `_require_comment_suffix` -/
def isCommentSuffix (suffix : List Char) : Bool := (strip suffix).head?.all (· == '#')

/-- `_parse_single_quoted` behind the opening quote -/
def parseSingleQuoted (value : List Char) (number : Nat) : Except DotenvError (List Char) :=
  match value.dropWhile (· ≠ '\'') with
  | [] => .error (.malformed number)
  | _ :: suffix => if isCommentSuffix suffix then .ok (value.takeWhile (· ≠ '\'')) else .error (.malformed number)

/-- `_parse_double_quoted` behind the opening quote -/
def parseDoubleQuoted (number : Nat) : List Char → Except DotenvError (List Char)
  | [] => .error (.malformed number)
  | '"' :: suffix => if isCommentSuffix suffix then .ok [] else .error (.malformed number)
  | ['\\'] => .error (.malformed number)
  | '\\' :: c :: rest =>
    match doubleQuoteEscape c with
    | none => .error (.malformed number)
    | some sign => (parseDoubleQuoted number rest).map (sign :: ·)
  | c :: rest => (parseDoubleQuoted number rest).map (c :: ·)

/-- An unquoted value up to a comment, which starts it or stands behind a blank. -/
def beforeComment : (free : Bool) → List Char → List Char
  | _, [] => []
  | free, c :: rest => if c = '#' ∧ free = true then [] else c :: beforeComment (isSpace c) rest

def parseValue (rawValue : List Char) (number : Nat) : Except DotenvError (List Char) :=
  match rawValue.dropWhile isSpace with
  | [] => .ok []
  | '\'' :: rest => parseSingleQuoted rest number
  | '"' :: rest => parseDoubleQuoted number rest
  | value => .ok ((beforeComment true value).reverse.dropWhile isSpace).reverse

def isPassedOver (line : List Char) : Bool := (strip line).head?.all (· == '#')

section
-- The test `ref.name ∈ seenNames` is decided through this instance.
local instance lawfulName : LawfulBEq (List Char) := inferInstance

def parseLine (number : Nat) (seenNames : List (List Char)) (line : List Char) : Except DotenvError DotenvEntry := do
  if '\x00' ∈ line ∨ '=' ∉ line then throw (.malformed number)
  let ref ← normalizeName (strip (line.takeWhile (· ≠ '='))) number
  if ref.name ∈ seenNames then throw (.malformed number)
  let value ← parseValue ((line.dropWhile (· ≠ '=')).drop 1) number
  return ⟨ref, value⟩

end

def parseLines : (number : Nat) → (seenNames : List (List Char)) → List (List Char) → Except DotenvError (List DotenvEntry)
  | _, _, [] => .ok []
  | number, seenNames, line :: rest =>
    if isPassedOver line then parseLines (number + 1) seenNames rest
    else do
      let entry ← parseLine number seenNames line
      let others ← parseLines (number + 1) (entry.ref.name :: seenNames) rest
      return entry :: others

/-- `read_text(encoding="utf-8-sig")` of the bytes of a file -/
def readText (content : Bytes) : Option (List Char) :=
  (decodeUtf8 content).map fun text => universalNewlines (if text.head? = some '\uFEFF' then text.drop 1 else text)

/-- `parse_dotenv` of a regular file -/
def parseDotenv (content : Bytes) : Except DotenvError (List DotenvEntry) :=
  match readText content with
  | none => .error .unreadable
  | some text => parseLines 1 [] (splitlines text)

end Workctx.Secrets
