import Workctx.Json.Value
import Workctx.Topics.Registry

/-! The front matter that the canonical documents share, and the identifiers and references in it. -/

namespace Workctx.Domain
open Workctx.Json Workctx.Topics

structure WorkctxUri where
  contextId : String
  entityType : String
  entityId : String
deriving DecidableEq

/-- What the document models take from outside: the Unicode database, the URI parser, the durable references, and
the calendar. -/
structure Library where
  unicode : UnicodeData
  platform : Platform
  /-- `WorkctxUri.parse` -/
  parseUri : String → Option WorkctxUri
  /-- `str` of a `WorkctxUri` -/
  formatUri : WorkctxUri → String
  /-- `strftime("%Y%m%d")` of the instant in UTC. -/
  utcDay : AwareDatetime → String

/-! Identifiers. -/

def isDigits (count : Nat) (text : List Char) : Bool := text.length == count && text.all isAsciiDigit

/-- `[0-9]{8}-`, a slug and `-[0-9]{2}`, behind a fixed tag. -/
def matchesDatedSequence (tag text : List Char) : Bool :=
  tag.isPrefixOf text &&
    let body := text.drop tag.length
    let segments := (body.drop 9).splitOn '-'
    isDigits 8 (body.take 8) && (body.drop 8).take 1 == ['-'] &&
      (segments.all fun segment => !segment.isEmpty && segment.all isLowerAlnum) && 2 ≤ segments.length &&
      isDigits 2 (segments.getLastD [])

/-- `DRAFT_ID_PATTERN` -/
def isDraftId (text : String) : Bool := matchesDatedSequence "DRAFT-".toList text.toList

/-- `SUGGESTION_ID_PATTERN` -/
def isSuggestionId (text : String) : Bool := matchesDatedSequence "SUG-".toList text.toList

def isPersonId (text : String) : Bool :=
  "PER-".toList.isPrefixOf text.toList && matchesSlug (text.toList.drop 4)

/-- `TASK-[0-9]{4}-[0-9]{3}` and an optional `-ST[0-9]{2}`. -/
def isTaskId (text : String) : Bool :=
  match text.toList.splitOn '-' with
  | [tag, year, number] => tag == "TASK".toList && isDigits 4 year && isDigits 3 number
  | [tag, year, number, part] =>
    tag == "TASK".toList && isDigits 4 year && isDigits 3 number && "ST".toList.isPrefixOf part && isDigits 2 (part.drop 2)
  | _ => false

def entityTypes : List String :=
  ["evidence", "person", "team", "project", "system", "service", "module", "flow", "integration", "decision", "risk",
    "question", "task", "claim", "draft", "investigation", "incident", "observation", "artifact"]

/-! The shared front matter. -/

/-- `EntityFrontmatter`; `extras` are the members its subclasses declare. -/
structure EntityFrontmatter (extras : Type) where
  id : String
  entityType : String
  title : String
  uri : String
  aliases : List String
  status : Option String
  confidence : Option String
  tags : List String
  topics : List String
  references : List Value
  createdAt : AwareDatetime
  updatedAt : AwareDatetime
  extras : extras

namespace EntityFrontmatter
variable {extras : Type} (library : Library)

def requireUriIdentityMatch (frontmatter : EntityFrontmatter extras) : Except String Unit :=
  match library.parseUri frontmatter.uri with
  | none => .error "uri must be a valid workctx:// URI"
  | some parsed => do
    check (parsed.entityType == frontmatter.entityType) "uri entity type must match entity_type"
    check (parsed.entityId == frontmatter.id) "uri entity ID must match id"

def requireUniqueValues (values : List String) : Except String Unit :=
  check (decide values.Nodup) "list values must be unique"

/-- `EntityFrontmatter.model_validate`; the references are validated by the schema they were read with. -/
def modelValidate (frontmatter : EntityFrontmatter extras) : Except String Unit := do
  constrain (frontmatter.id != "") "id"
  constrain (entityTypes.contains frontmatter.entityType) "entity_type"
  constrain (frontmatter.title != "") "title"
  constrain (frontmatter.uri != "") "uri"
  constrain (frontmatter.confidence.all ["low", "medium", "high"].contains) "confidence"
  constrain (frontmatter.topics.all isTopicSlug) "topics"
  requireUniqueValues frontmatter.aliases
  requireUniqueValues frontmatter.tags
  requireUniqueValues frontmatter.topics
  requireUriIdentityMatch library frontmatter

end EntityFrontmatter

def canonicalTypedUri (library : Library) (value entityType : String) : Except String Unit :=
  match library.parseUri value with
  | none => .error ("value must be a canonical " ++ entityType ++ " URI")
  | some parsed => do
    check (parsed.entityType == entityType && library.formatUri parsed == value)
      ("value must be a canonical " ++ entityType ++ " URI")
    check (entityType != "person" || isPersonId parsed.entityId) ("value must be a canonical " ++ entityType ++ " URI")
    check (entityType != "task" || isTaskId parsed.entityId) ("value must be a canonical " ++ entityType ++ " URI")

/-- `_single_line` of the drafts and the suggestions. -/
def printableLine (value label : String) : Except String Unit :=
  check (!value.toList.any fun c => c == '\r' || c == '\n' || isControl c) (label ++ " must be a printable single-line value")

/-- `validate_source_refs`: canonical, and unique. -/
def validateSourceRefs (platform : Platform) (values : List String) : Except String (List String) :=
  match values.mapM platform.validateDurableReference with
  | none => .error "source_refs"
  | some canonical => do
    check (decide canonical.Nodup) "source_refs must contain unique durable references"
    .ok canonical

end Workctx.Domain
