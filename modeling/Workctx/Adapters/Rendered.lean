import Mathlib.Data.Char
import Mathlib.Data.List.DropRight
import Mathlib.Data.List.Lex
import Mathlib.Data.Prod.Lex
import Workctx.Json.Points
import Workctx.Search.Sorted
import Workctx.Text.Lines
import Workctx.Text.Newlines

/-! Generated skill files: the commitment above the closing fence, as it is written and as it is read back. -/

namespace Workctx.Adapters
open Workctx.Json Workctx.Search Workctx.Text

/-! Relative paths -/

def pointsOf (text : String) : Points := text.toList.map Char.toNat

def windowsForbiddenCharacters : Points := pointsOf "<>:\"|?*"

def windowsReservedNames : List Points :=
  ["CON", "PRN", "AUX", "NUL", "CLOCK$", "CONIN$", "CONOUT$",
    "COM1", "COM2", "COM3", "COM4", "COM5", "COM6", "COM7", "COM8", "COM9",
    "LPT1", "LPT2", "LPT3", "LPT4", "LPT5", "LPT6", "LPT7", "LPT8", "LPT9",
    "COM\u00b9", "COM\u00b2", "COM\u00b3", "LPT\u00b9", "LPT\u00b2", "LPT\u00b3"].map pointsOf

section
variable (upper : Points → Points)

/-- `upper` is `str.upper`. -/
def deviceStem (segment : Points) : Points :=
  upper ((segment.takeWhile (· != 46)).rdropWhile fun code => code == 32 || code == 46)

def segmentError (segment : Points) : Option String :=
  if segment ∈ [[], pointsOf ".", pointsOf ".."] then some "Adapter paths contain an empty or traversal segment"
  else if segment.getLast? = some 46 ∨ segment.getLast? = some 32 then some "Adapter path segments must not end in a dot or space"
  else if segment.any (· < 32) then some "Adapter path segments must not contain control characters"
  else if segment.any (windowsForbiddenCharacters.contains ·) then some "Adapter path segments contain a Windows-forbidden character"
  else if deviceStem upper segment ∈ windowsReservedNames then some "Adapter path segments must not use Windows device names"
  else none

/-- Without a backslash and a slash in front, a path has a drive or is absolute for `ntpath` only with a colon behind its first sign. -/
def validateRelativePath (path : Points) : Except String Points :=
  if path = [] then .error "Adapter paths must not be empty"
  else if 92 ∈ path then .error "Adapter paths must use forward slashes"
  else if path.head? = some 47 ∨ path[1]? = some 58 then .error "Adapter paths must be relative"
  else if 0 ∈ path then .error "Adapter paths must not contain NUL"
  else match (path.splitOn 47).findSome? (segmentError upper) with
    | some message => .error message
    | none => .ok path

end

/-! The lines of a skill -/

/-- `line.rstrip("\r\n")` -/
def stripEnd (line : List Char) : List Char := line.rdropWhile fun c => c == '\r' || c == '\n'

def isFence (line : List Char) : Bool := stripEnd line == ['-', '-', '-']

def delimiterIndex (lines : List (List Char)) : Option Nat := (lines.tail.findIdx? isFence).map (· + 1)

def newlineOf (lines : List (List Char)) : List Char :=
  if lines.head?.any (['\r', '\n'].isSuffixOf ·) then ['\r', '\n'] else ['\n']

abbrev ResourceHash := Points × List Char

def ResourceHash.key (resource : ResourceHash) : Points ×ₗ List Char := toLex resource

def sideEffectLead : List Char := "# workctx-side-effect-class: ".toList

def resourceLead : List Char := "# workctx-resource-sha256: ".toList

def sideEffectLine (newline sideEffectClass : List Char) : List Char := sideEffectLead ++ sideEffectClass ++ newline

def resourceLine (newline : List Char) (resource : ResourceHash) : List Char :=
  resourceLead ++ resource.2 ++ ' ' :: dumpsPoints resource.1 ++ newline

def advisories (newline sideEffectClass : List Char) (resources : List ResourceHash) : List (List Char) :=
  sideEffectLine newline sideEffectClass :: resources.map (resourceLine newline)

def injectAdvisoryComment (content : Bytes) (sideEffectClass : List Char) (resources : List ResourceHash) : Except String Bytes :=
  match decodeUtf8 content with
  | none => .error "Canonical skill must be UTF-8"
  | some text =>
    let lines := cutLines endsLine text
    if lines.length < 4 ∨ lines.head?.any isFence = false then .error "Canonical skill must start with YAML frontmatter"
    else match delimiterIndex lines with
      | none => .error "Canonical skill frontmatter is not closed"
      | some index =>
        .ok (encodeUtf8 (lines.take index ++ advisories (newlineOf lines) sideEffectClass resources ++ lines.drop index).flatten)

def renderSkillPrimary (content : Bytes) (sideEffectClass : List Char) (resources : List ResourceHash) : Except String Bytes :=
  injectAdvisoryComment content sideEffectClass (sortedBy ResourceHash.key resources)

/-! The commitment, read back -/

def isDigest (digest : List Char) : Bool :=
  digest.length == 71 && "sha256:".toList.isPrefixOf digest && (digest.drop 7).all ("0123456789abcdef".toList.contains ·)

def behind (lead line : List Char) : Option (List Char) := if lead.isPrefixOf line then some (line.drop lead.length) else none

def sideEffectClasses : List (List Char) :=
  ["read_only".toList, "local_proposal".toList, "local_mutation".toList, "external_read".toList, "external_write".toList]

section
variable (upper : Points → Points)

def readResource (rest : List Char) : Option ResourceHash :=
  match rest.dropWhile (· != ' ') with
  | [] => none
  | _ :: encoded =>
    if isDigest (rest.takeWhile (· != ' ')) then
      match loadsPoints encoded with
      | none => none
      | some path =>
        match validateRelativePath upper path with
        | .error _ => none
        | .ok path => some (path, rest.takeWhile (· != ' '))
    else none

/-- The loop over the lines above the fence, from the last one up to the one behind the first; and the lines that it leaves. -/
def scanResources : List (List Char) → Option (List ResourceHash × List (List Char))
  | [] => some ([], [])
  | line :: above =>
    match behind resourceLead (stripEnd line) with
    | none => some ([], line :: above)
    | some rest =>
      match readResource upper rest with
      | none => none
      | some resource => (scanResources above).map fun scanned => (scanned.1 ++ [resource], scanned.2)

def parseRenderedSkillPrimary (content : Bytes) : Option (Bytes × List Char × List ResourceHash) :=
  match decodeUtf8 content with
  | none => none
  | some text =>
    let lines := cutLines endsLine text
    if lines.length < 4 ∨ lines.head?.any isFence = false then none
    else match delimiterIndex lines with
      | none => none
      | some index =>
        match scanResources upper (lines.take index).tail.reverse with
        | none => none
        | some (_, []) => none
        | some (resources, line :: above) =>
          match behind sideEffectLead (stripEnd line) with
          | none => none
          | some sideEffectClass =>
            if sideEffectClass ∉ sideEffectClasses then none
            else if resources ≠ sortedBy ResourceHash.key resources.dedup then none
            else some (encodeUtf8 (lines.take 1 ++ above.reverse ++ lines.drop index).flatten, sideEffectClass, resources)

end

end Workctx.Adapters
