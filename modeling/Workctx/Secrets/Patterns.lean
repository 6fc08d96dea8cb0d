import Workctx.Domain.Checks
import Workctx.Services.World
import Workctx.Text.Newlines
import Workctx.Text.Patterns

/-! The patterns of possible secrets, and what of a text they report. -/

namespace Workctx.Secrets
open Workctx.Text Workctx.Domain Workctx.Services

/-! The signs of the patterns. They match without regard to case: the dotted and the dotless i, the
long s and the Kelvin sign are letters to them. -/

def foldedLetter (c : Char) : Bool :=
  ('a' ≤ c && c ≤ 'z') || ('A' ≤ c && c ≤ 'Z') || c == '\u0130' || c == '\u0131' || c == '\u017F' || c == '\u212A'

/-- `[A-Za-z0-9_-]` -/
def isKeySign (c : Char) : Bool := foldedLetter c || isAsciiDigit c || c == '_' || c == '-'

def isQuote (c : Char) : Bool := c == '\'' || c == '"'

/-- `[^\s'",}]` -/
def isValueSign (c : Char) : Bool := !(isSpace c || isQuote c || c == ',' || c == '}')

def isBearerSign (c : Char) : Bool := foldedLetter c || isAsciiDigit c || "._~+/=-".toList.contains c

/-! The markers. -/

def plain (text : String) : Pattern Char := .literal id text.toList

def folded (word : String) : Pattern Char := .literal lowerAscii word.toList

def spaces : Pattern Char := .run isSpace 1 none

def privateKeyMarker : Pattern Char :=
  .chain (plain "-----BEGIN ") [.optional (.oneOf (plain "RSA ") [plain "EC ", plain "OPENSSH "]), plain "PRIVATE KEY-----"]

section
variable (isWord : Char → Bool)

def bearerMarker : Pattern Char := .chain (.notBehind isWord) [folded "bearer", spaces, .run isBearerSign 12 none]

def secretMarkers : List (String × Pattern Char) :=
  [("private-key marker", privateKeyMarker), ("bearer-token marker", bearerMarker isWord)]

/-! Assignments. -/

/-- `['"]?` -/
def dropQuote : List Char → List Char
  | c :: rest => if isQuote c then rest else c :: rest
  | [] => []

def environmentPrefix : List Char := "$env:".toList

/-- What follows the key of an assignment, up to its value; none where it is no assignment. -/
def assignmentTail (text : List Char) : Option (List Char) :=
  match (dropQuote text).dropWhile isSpace with
  | c :: rest => if c == ':' || c == '=' then some (dropQuote (rest.dropWhile isSpace)) else none
  | [] => none

/-- `_SECRET_ASSIGNMENT`, with its key: each part of the pattern ends where no further sign can belong to it. -/
def matchAssignment : Matcher Char (List Char) := fun before text =>
  let body := if (text.take 5).map lowerAscii == environmentPrefix then text.drop 5 else text
  let key := body.takeWhile isKeySign
  if before.any isKeySign || !key.head?.any foldedLetter then none
  else match assignmentTail (body.drop key.length) with
    | some tail =>
      let value := tail.takeWhile isValueSign
      if 12 ≤ value.length then some (key, text.length - tail.length + value.length) else none
    | none => none

/-! Secret keys. -/

def secretKeySuffixes : List String :=
  ["api_key", "access_token", "client_secret", "secret_access_key", "password", "authorization", "private_key", "token"]

/-- `str.lower` of a sign of a key. -/
def lowerKeySign (c : Char) : List Char := if c = '\u0130' then ['i', '\u0307'] else if c = '\u212A' then ['k'] else [lowerAscii c]

def isSecretKey (key : List Char) : Bool :=
  let normalized := (key.flatMap lowerKeySign).map fun c => if c = '-' then '_' else c
  let compact := normalized.filter (· != '_')
  secretKeySuffixes.any fun suffix =>
    let short := suffix.toList.filter (· != '_')
    normalized == suffix.toList || ('_' :: suffix.toList).isSuffixOf normalized || compact == short || short.isSuffixOf compact

/-! Findings. -/

def lineStartsFrom : (place : Nat) → List Char → List Nat
  | _, [] => []
  | _, [_] => []
  | place, c :: next :: rest =>
    if endsLine c && !(c == '\r' && next == '\n') then (place + 1) :: lineStartsFrom (place + 1) (next :: rest)
    else lineStartsFrom (place + 1) (next :: rest)

def lineOf (content : List Char) (place : Nat) : Nat := (0 :: lineStartsFrom 0 content).countP (· ≤ place)

structure PossibleSecretFinding where
  line : Nat
  kind : String
deriving DecidableEq

/-- The assignments of a text behind a sign, with the places where they start. -/
def assignments (before : Option Char) (content : List Char) : List (Nat × List Char) := matchAssignment.findFrom 0 0 before content

/-- What is located in a text, with its line, its place and its kind. -/
def located (content : List Char) : List (Nat × Nat × String) :=
  ((secretMarkers isWord).flatMap fun marker =>
      (marker.2.longest.findFrom 0 0 none content).map fun found => (lineOf content found.1, found.1, marker.1)) ++
    ((assignments none content).filter fun found => isSecretKey found.2).map fun found =>
      (lineOf content found.1, found.1, "assignment to key '" ++ String.ofList found.2 ++ "'")

def possibleSecretFindings (content : List Char) : List PossibleSecretFinding :=
  ((located isWord content).mergeSort fun one two =>
      decide (one.1 < two.1 ∨ (one.1 = two.1 ∧ (one.2.1 < two.2.1 ∨ (one.2.1 = two.2.1 ∧ one.2.2 ≤ two.2.2))))).map
    fun found => ⟨found.1, found.2.2⟩

def containsPossibleSecret (content : List Char) : Bool := !(possibleSecretFindings isWord content).isEmpty

end
end Workctx.Secrets
