import Workctx.References.Urls
import Workctx.Domain.Claims

/-! The references that documents keep: entities of a context, artifacts, and lines of a repository. -/

namespace Workctx.References
open Workctx.Domain (isAsciiDigit isDigits isHex64 isLowerAlnum isObservationId matchesSlug)

def guarded {ε α : Type} (checked : Except ε Unit) (build : checked = .ok () → α) : Except ε α :=
  match checked, build with
  | .ok (), build => .ok (build rfl)
  | .error error, _ => .error error

/-! Entities. -/

/-- `WorkctxUri.__post_init__` -/
def checkWorkctxUri (contextId entityType entityId : Text) : Except ReferenceError Unit := do
  require (fullmatch matchesSlug contextId)
    "Invalid context ID: context IDs use lowercase ASCII letters, digits, and single hyphens"
  require (fullmatch matchesSlug entityType) "Entity types use lowercase ASCII letters, digits, and single hyphens"
  require (!(entityId.isEmpty || [literal ['.'], literal ['.', '.']].contains entityId || entityId.contains (.scalar '/') ||
      entityId.contains (.scalar '\\'))) "Entity ID is required and cannot be a path traversal segment"

structure WorkctxUri where
  contextId : Text
  entityType : Text
  entityId : Text
  valid : checkWorkctxUri contextId entityType entityId = .ok ()

def WorkctxUri.make (contextId entityType entityId : Text) : Except ReferenceError WorkctxUri :=
  guarded (checkWorkctxUri contextId entityType entityId) (WorkctxUri.mk contextId entityType entityId)

def twoSegments (path : Text) : Option (Text × Text) :=
  match path.splitOn (.scalar '/') with
  | [root, first, second] => if root.isEmpty && !first.isEmpty && !second.isEmpty then some (first, second) else none
  | _ => none

def WorkctxUri.parse (tables : Tables) (value : Text) : Except ReferenceError WorkctxUri := do
  let parsed ← urlparse tables value
  require (decide (parsed.scheme = literal "workctx".toList)) "URI scheme must be 'workctx'"
  require (parsed.params.isEmpty && parsed.query.isEmpty && !value.contains (.scalar '?'))
    "Work Context URIs cannot contain params, query, or fragment"
  require (parsed.fragment.isEmpty && !value.contains (.scalar '#'))
    "Work Context URIs cannot contain a literal '#' fragment; encode '#' as '%23' or use normalize_workctx_uri()"
  match twoSegments parsed.path with
  | none => .error (.value "Work Context URI must contain exactly one entity type and one entity ID without empty path segments")
  | some (entityType, encodedEntityId) => do
    require (validEscapes encodedEntityId) "Entity ID contains a malformed percent escape"
    let entityId ← unquote encodedEntityId
    WorkctxUri.make parsed.netloc entityType entityId

def WorkctxUri.str (uri : WorkctxUri) : Except ReferenceError Text := do
  let encodedId ← quote uri.entityId
  .ok (literal "workctx://".toList ++ uri.contextId ++ literal ['/'] ++ uri.entityType ++ literal ['/'] ++ encodedId)

/-- `ObservationId.parse` -/
def parseObservationId (value : Text) : Except ReferenceError Unit :=
  if fullmatch (fun chars => isObservationId (String.ofList chars)) value then .ok () else .error (.observationId value)

def observation : Text := literal "observation".toList

/-- `_OBSERVATION_FRAGMENT_PATTERN` -/
def isObservationFragment (fragment : List Char) : Bool := "OBS-".toList.isPrefixOf fragment && isDigits 3 (fragment.drop 4)

/-- An observation is referred to by an observation id. -/
def checkEntityId (uri : WorkctxUri) : Except ReferenceError Unit :=
  if uri.entityType = observation then parseObservationId uri.entityId else .ok ()

def normalizeWorkctxUri (tables : Tables) (value : Text) : Except ReferenceError Text := do
  let parsed ← urlparse tables value
  if parsed.fragment.isEmpty then do
    let uri ← WorkctxUri.parse tables value
    checkEntityId uri
    uri.str
  else if !parsed.params.isEmpty || !parsed.query.isEmpty then do
    let uri ← WorkctxUri.parse tables value
    uri.str
  else do
    require (decide (parsed.scheme = literal "workctx".toList) && fullmatch isObservationFragment parsed.fragment)
      "Only a literal '#OBS-NNN' observation separator can be normalized"
    require ((twoSegments parsed.path).any fun segments => decide (segments.1 = observation))
      "A literal '#OBS-NNN' separator is valid only for an observation URI"
    let uri ← WorkctxUri.parse tables ((cut '#' value).1 ++ literal "%23".toList ++ parsed.fragment)
    parseObservationId uri.entityId
    uri.str

/-! Artifacts. -/

def checkDigest (digest : Text) : Except ReferenceError Unit :=
  require (fullmatch isHex64 digest) "Artifact digest must contain exactly 64 lowercase hexadecimal digits"

structure ArtifactReference where
  digest : Text
  valid : checkDigest digest = .ok ()

def artifactPrefix : Text := literal "artifact://sha256/".toList

def ArtifactReference.parse (value : Text) : Except ReferenceError ArtifactReference := do
  let digest := value.drop artifactPrefix.length
  require (artifactPrefix.isPrefixOf value && fullmatch isHex64 digest)
    "Artifact reference must use artifact://sha256/<64-lowercase-hex>"
  guarded (checkDigest digest) (ArtifactReference.mk digest)

def ArtifactReference.str (reference : ArtifactReference) : Text := artifactPrefix ++ reference.digest

/-! Lines of a repository. -/

/-- `_REPO_ID_PATTERN` -/
def matchesRepoId (text : List Char) : Bool :=
  (text.splitOnP fun c => ['.', '_', '-'].contains c).all fun segment => !segment.isEmpty && segment.all isLowerAlnum

def isHexDigit (c : Char) : Bool := isAsciiDigit c || ('a' ≤ c && c ≤ 'f') || ('A' ≤ c && c ≤ 'F')

/-- `_COMMIT_PATTERN` -/
def matchesCommit (text : List Char) : Bool := 7 ≤ text.length && text.length ≤ 64 && text.all isHexDigit

/-- `_WINDOWS_ABSOLUTE_PATH_PATTERN.match` -/
def startsWithDrive : Text → Bool
  | .scalar letter :: .scalar ':' :: .scalar slash :: _ => letter.isAlpha && (slash == '\\' || slash == '/')
  | _ => false

def isAbsoluteMachinePath (value : Text) : Bool :=
  value.head?.any (CodePoint.is fun c => c == '/' || c == '\\') || startsWithDrive value

def validateRepoPath (value : Text) : Except ReferenceError Unit := do
  require (!value.isEmpty) "Repository path is required"
  require (!(isAbsoluteMachinePath value || value.contains (.scalar '\\'))) "Repository path must be relative and use forward slashes"
  require (!(value.splitOn (.scalar '/')).any fun part => [[], literal ['.'], literal ['.', '.']].contains part)
    "Repository path cannot contain empty or traversal segments"
  require (!value.contains (.scalar '\x00')) "Repository path cannot contain a null byte"

/-- `RepoReference.__post_init__` -/
def checkRepoReference (repoId commit path : Text) (startLine endLine : Int) : Except ReferenceError Unit := do
  require (fullmatch matchesRepoId repoId) "Repository IDs use lowercase ASCII segments separated by '.', '_' or '-'"
  require (fullmatch matchesCommit commit) "Repository commit must be a 7-64 character hexadecimal SHA"
  validateRepoPath path
  require (decide (1 ≤ startLine)) "Repository start line must be an integer greater than or equal to 1"
  require (decide (startLine ≤ endLine)) "Repository end line must be greater than or equal to start line"

structure RepoReference where
  repoId : Text
  commit : Text
  path : Text
  startLine : Int
  endLine : Int
  valid : checkRepoReference repoId commit path startLine endLine = .ok ()

/-- The digits that `int` and `str` convert at most. -/
def maxStrDigits : Nat := 4300

/-- `str` of an integer -/
def intText (n : Int) : Except ReferenceError (List Char) :=
  let digits := Nat.toDigits 10 n.natAbs
  if maxStrDigits < digits.length then .error .digits else .ok (if n < 0 then '-' :: digits else digits)

/-- `int` of decimal digits -/
def readInt (digits : List Char) : Except ReferenceError Int :=
  if maxStrDigits < digits.length then .error .digits else .ok (Nat.ofDigitChars 10 digits 0)

def RepoReference.str (reference : RepoReference) : Except ReferenceError Text := do
  let encodedPath ← quotePath reference.path
  let first ← intText reference.startLine
  let last ← intText reference.endLine
  .ok (literal "repo://".toList ++ reference.repoId ++ literal ['@'] ++ reference.commit ++ literal ['/'] ++ encodedPath ++
    literal (['#', 'L'] ++ first ++ ['-', 'L'] ++ last))

def isLineNumber (digits : List Char) : Bool := digits.head?.any (fun c => '1' ≤ c && c ≤ '9') && digits.all isAsciiDigit

/-- `_REPO_LINE_FRAGMENT_PATTERN`, with its groups -/
def lineFragment (fragment : List Char) : Option (List Char × List Char) :=
  match fragment.splitOn '-' with
  | ['L' :: first, 'L' :: last] => if isLineNumber first && isLineNumber last then some (first, last) else none
  | _ => none

/-- `netloc.rsplit("@", 1)` -/
def rsplitAt (netloc : Text) : Text × Text :=
  let commit := (netloc.reverse.takeWhile fun point => decide (point ≠ .scalar '@')).reverse
  (netloc.take (netloc.length - commit.length - 1), commit)

def RepoReference.parse (tables : Tables) (value : Text) : Except ReferenceError RepoReference := do
  require ((literal "repo://".toList).isPrefixOf value) "Repository reference must use the 'repo' URI scheme"
  let parsed ← urlparse tables value
  require (decide (parsed.scheme = literal "repo".toList) && parsed.params.isEmpty && parsed.query.isEmpty)
    "Repository references cannot contain params or query values"
  require (parsed.netloc.contains (.scalar '@')) "Repository reference must include '@<commit>'"
  let (repoId, commit) := rsplitAt parsed.netloc
  match (scalars? parsed.fragment).bind lineFragment with
  | none => .error (.value "Repository reference must end with '#L<start>-L<end>'")
  | some (first, last) => do
    require (decide (parsed.path.head? = some (.scalar '/')) && decide (parsed.path ≠ literal ['/']))
      "Repository reference must include a relative path"
    let encodedPath := parsed.path.drop 1
    require (validEscapes encodedPath) "Repository path contains a malformed percent escape"
    let path ← unquote encodedPath
    let startLine ← readInt first
    let endLine ← readInt last
    let reference ← guarded (checkRepoReference repoId commit path startLine endLine) (RepoReference.mk repoId commit path startLine endLine)
    let text ← reference.str
    require (decide (text = value)) "Repository reference must use its canonical URI encoding"
    .ok reference

/-! Durable references. -/

inductive DurableReference where
  | workctx (uri : WorkctxUri)
  | artifact (reference : ArtifactReference)
  | repo (reference : RepoReference)
  | external (value : Text)

/-- `EntityType(name)` -/
def checkEntityType (name : Text) : Except ReferenceError Unit :=
  if Domain.entityTypes.any fun type => decide (literal type.toList = name) then .ok () else .error (.entityType name)

def validateWorkctxEntityUri (tables : Tables) (value : Text) : Except ReferenceError WorkctxUri := do
  let uri ← WorkctxUri.parse tables value
  checkEntityType uri.entityType
  let text ← uri.str
  require (decide (text = value)) "Work Context entity reference must use its canonical URI encoding"
  .ok uri

/-- What stands before the first `://` of a text. -/
def beforeAuthority : Text → Option Text
  | [] => none
  | point :: rest =>
    if (literal "://".toList).isPrefixOf (point :: rest) then some [] else (beforeAuthority rest).map (point :: ·)

/-- `_GENERIC_URI_PATTERN` -/
def isGenericUri (value : Text) : Bool :=
  let scheme := value.takeWhile fun point => decide (point ≠ .scalar ':')
  let target := value.drop (scheme.length + 3)
  scheme.head?.any (CodePoint.is fun c => 'a' ≤ c && c ≤ 'z') &&
    scheme.all (CodePoint.is fun c => isLowerAlnum c || ['+', '.', '-'].contains c) &&
    (literal "://".toList).isPrefixOf (value.drop scheme.length) && !target.isEmpty && !target.contains (.scalar '\n')

def parseDurableReference (tables : Tables) (value : Text) : Except ReferenceError DurableReference := do
  require (!value.isEmpty) "Durable reference must be a non-empty URI string"
  require (!isAbsoluteMachinePath value) "Absolute machine paths are not durable references"
  require (match beforeAuthority value with
    | some scheme => decide (tables.lower scheme = scheme) || scheme.isEmpty
    | none => true) "Durable reference URI schemes must use canonical lowercase"
  let parsed ← urlparse tables value
  let scheme := parsed.scheme.map CodePoint.lowerAscii
  require (decide (scheme ≠ literal "file".toList)) "file:// URIs are machine-specific and cannot be durable references"
  if scheme = literal "workctx".toList then do
    let uri ← validateWorkctxEntityUri tables value
    .ok (.workctx uri)
  else if scheme = literal "artifact".toList then do
    let reference ← ArtifactReference.parse value
    .ok (.artifact reference)
  else if scheme = literal "repo".toList then do
    let reference ← RepoReference.parse tables value
    .ok (.repo reference)
  else do
    require (isGenericUri value) "Durable reference must use a '<scheme>://<target>' URI"
    .ok (.external value)

def DurableReference.str : DurableReference → Except ReferenceError Text
  | .workctx uri => uri.str
  | .artifact reference => .ok reference.str
  | .repo reference => reference.str
  | .external value => .ok value

def validateDurableReference (tables : Tables) (value : Text) : Except ReferenceError Text := do
  let reference ← parseDurableReference tables value
  reference.str

end Workctx.References
