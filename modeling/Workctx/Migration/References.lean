import Workctx.Migration.Mapping

/-! The references of legacy documents, and what they are mapped to. -/

namespace Workctx.Migration
open Workctx.Concurrent Workctx.Domain Workctx.Topics Workctx.Text

/-- What the normalization takes from the standard library: the calendar, and the path of a URL, percent-decoded. -/
structure Standard where
  library : Library
  /-- `datetime.fromisoformat`, and `date.fromisoformat` with the first moment of the day. -/
  fromIsoFormat : String → Option Datetime
  dateFromIsoFormat : String → Option Int
  /-- `isoformat` of an instant in UTC, with the designator `Z`, and of a date. -/
  utcText : Int → String
  dateText : Int → String
  /-- `unquote(urlsplit(text).path)`; none where it raises. -/
  urlPath : String → Option String

inductive NormalizeError where
  /-- A document that the models reject, or that lacks what is required. -/
  | failed (message : String)
  | keyError (key : String)
  | indexError
  | overflow
  | exhausted (message : String)
  | notUnique
deriving DecidableEq

/-! Absolute paths. -/

def isPathChar (c : Char) : Bool := !isSpace c && c != '<' && c != '>' && c != '\'' && c != '"'

/-- The directories of `_POSIX_ABSOLUTE` -/
def posixRoots : List (List Char) :=
  ["Users", "Volumes", "etc", "home", "mnt", "opt", "private", "tmp", "usr", "var"].map String.toList

def pathRest (text : List Char) : Option Nat :=
  let rest := text.takeWhile isPathChar
  if rest.isEmpty then none else some rest.length

/-- The length of a match of `_WINDOWS_ABSOLUTE` behind this character -/
def windowsMatch (previous : Option Char) : List Char → Option Nat
  | letter :: ':' :: slash :: rest =>
    if (previous.all fun c => !c.isAlphanum) && letter.isAlpha && (slash == '\\' || slash == '/') then
      (pathRest rest).map (· + 3)
    else none
  | _ => none

/-- The length of a match of `_POSIX_ABSOLUTE` behind this character -/
def posixMatch (previous : Option Char) : List Char → Option Nat
  | '/' :: text =>
    if previous.all fun c => !c.isAlphanum && c != ':' then
      posixRoots.findSome? fun root =>
        if (root ++ ['/']).isPrefixOf text then (pathRest (text.drop (root.length + 1))).map (· + root.length + 2) else none
    else none
  | _ => none

/-- `search` -/
def hasMatch (find : Option Char → List Char → Option Nat) : Option Char → List Char → Bool
  | previous, [] => (find previous []).isSome
  | previous, c :: rest => (find previous (c :: rest)).isSome || hasMatch find (some c) rest

def containsAbsolutePath (text : String) : Bool :=
  hasMatch windowsMatch none text.toList || hasMatch posixMatch none text.toList

section
variable (standard : Standard)

def unavailableMarker (value : String) : String :=
  "unavailable://legacy/reference-" ++ String.ofList ((standard.library.platform.sha256Hex (encodeUtf8 value.toList)).toList.take 16)

/-- `sub` of the marker for every match; so many characters of a match are still to be passed over. -/
def replaceMatches (find : Option Char → List Char → Option Nat) : Option Char → Nat → List Char → List Char
  | _, _, [] => []
  | _, skipped + 1, c :: rest => replaceMatches find (some c) skipped rest
  | previous, 0, c :: rest =>
    match find previous (c :: rest) with
    | some (length + 1) =>
      (unavailableMarker standard (String.ofList ((c :: rest).take (length + 1)))).toList ++
        replaceMatches find (some c) length rest
    | _ => c :: replaceMatches find (some c) 0 rest

def replaceAbsolutePaths (text : String) : String :=
  String.ofList (replaceMatches standard posixMatch none 0 (replaceMatches standard windowsMatch none 0 text.toList))

/-! References. -/

/-- `_URI_SCHEME`: a letter, some of its characters and `://`. -/
def hasUriScheme (text : String) : Bool :=
  match text.toList with
  | [] => false
  | first :: rest =>
    first.isAlpha && "://".toList.isPrefixOf (rest.dropWhile fun c => c.isAlphanum || c == '+' || c == '.' || c == '-')

section
variable (plan : MigrationPlan)

def MigrationPlan.documentBySource (path : String) : Option PlannedDocument :=
  plan.documents.reverse.find? fun planned => planned.source.relativePath == path

/-- `documents_by_old_id`: the first of those in the order of their paths. -/
def MigrationPlan.documentByOldId (id : String) : Option PlannedDocument :=
  (sortByPath standard.library.unicode (fun planned => planned.source.relativePath)
    (plan.documents.filter fun planned => planned.source.oldId == some id)).head?

def MigrationPlan.artifactBySource (path : String) : Option ArtifactPlan :=
  plan.artifacts.reverse.find? fun artifact => artifact.sourcePath == path

/-- The path of a reference with its angle brackets and its title taken away. -/
def referencePath (authored : String) : Except NormalizeError String :=
  let stripped := (((strip authored.toList).dropWhile fun c => c == '<' || c == '>').reverse.dropWhile fun c => c == '<' || c == '>').reverse
  if stripped.contains ' ' then
    match (stripped.dropWhile isSpace).takeWhile fun c => !isSpace c with
    | [] => .error .indexError
    | target => .ok (String.ofList target)
  else .ok (String.ofList stripped)

/-- `PurePosixPath(path).suffix` is empty. -/
def hasNoSuffix (path : String) : Bool := stem path == String.ofList ((pathParts path).getLastD [])

def resolveRelativeSource (source : LegacyDocument) (authored : String) : Except NormalizeError (Option String) := do
  let target ← referencePath authored
  let path := (standard.urlPath target).getD target
  if path == "" || path.toList.head? == some '/' || path.toList.head? == some '\\' then .ok none
  else
    let normalized := resolveBeside source.relativePath path
    if (plan.documentBySource normalized).isSome || (plan.artifactBySource normalized).isSome then .ok (some normalized)
    else if hasNoSuffix normalized && (plan.documentBySource (normalized ++ ".md")).isSome then .ok (some (normalized ++ ".md"))
    else .ok (if normalized == "" then none else some normalized)

def mapRelative (source : LegacyDocument) (authored : String) : Except NormalizeError String := do
  let relative ← resolveRelativeSource standard plan source authored
  let folded := standard.library.unicode.casefold
  match relative with
  | none => .ok (unavailableMarker standard authored)
  | some path =>
    match (plan.documentBySource path).or
        (plan.documents.reverse.find? fun planned => folded planned.source.relativePath == folded path) with
    | some planned => .ok planned.targetUri
    | none =>
      match (plan.artifactBySource path).or
          (plan.artifacts.reverse.find? fun artifact => folded artifact.sourcePath == folded path) with
      | some artifact => .ok artifact.reference
      | none => .ok (unavailableMarker standard authored)

def mapReference (value : Yaml) (source : LegacyDocument) : Except NormalizeError String :=
  match (value.text.map fun text => String.ofList (strip text.toList)).filter (· != "") with
  | none => .ok (unavailableMarker standard "missing-reference")
  | some authored =>
    if containsAbsolutePath authored then .ok (unavailableMarker standard authored)
    else if "workctx://".toList.isPrefixOf authored.toList then
      match standard.library.parseUri authored with
      | none => .ok (unavailableMarker standard authored)
      | some uri =>
        if uri.contextId == plan.contextId && plan.documents.any fun planned => planned.targetUri == authored then .ok authored
        else .ok (((plan.documentByOldId standard uri.entityId).map PlannedDocument.targetUri).getD (unavailableMarker standard authored))
    else if "artifact://".toList.isPrefixOf authored.toList then
      if plan.artifacts.any fun artifact => artifact.reference == authored then .ok authored
      else .ok (unavailableMarker standard authored)
    else if hasUriScheme authored then
      .ok ((standard.library.platform.validateDurableReference authored).getD (unavailableMarker standard authored))
    else
      match plan.documentByOldId standard authored with
      | some planned => .ok planned.targetUri
      | none => mapRelative standard plan source authored

end
end
end Workctx.Migration
