import Workctx.Concurrent.Directory
import Workctx.Domain.Claims

/-! The inventory of a legacy tree, and the identifiers and paths of what it is migrated to. -/

namespace Workctx.Migration
open Workctx.Concurrent Workctx.Domain Workctx.Topics

/-! Front matter. -/

/-- A date-time of the calendar: its own clock in microseconds, and the offset of that clock. -/
structure Datetime where
  clock : Int
  utcoffset : Option Int

/-- What `yaml.safe_load` makes of a document. -/
inductive Yaml where
  | null
  | bool (value : Bool)
  | int (value : Int)
  | float (lexeme : List Char)
  | string (value : String)
  | datetime (value : Datetime)
  | date (midnight : Int)
  | list (items : List Yaml)
  | dict (members : List (Yaml × Yaml))
  | other (text : String)

def Yaml.text : Yaml → Option String
  | .string value => some value
  | _ => none

structure LegacyDocument where
  relativePath : String
  reportPath : String
  frontmatter : Directory String Yaml
  body : String
  entityType : String
  oldId : Option String
  frontmatterSpans : Directory String (Nat × Nat)
  containsSecret : Bool
  unsafeContent : Bool

/-- `LegacyFile`; canonical is one of its classifications. -/
structure LegacyFile where
  relativePath : String
  contentHash : String
  isCanonical : Bool
  entityType : Option String
  containsSecret : Bool
  unsafeContent : Bool

/-- `InventoryAnalysis`: a document is made of one file. -/
structure InventoryAnalysis where
  files : List LegacyFile
  documents : List LegacyDocument
  apart : (documents.map LegacyDocument.relativePath).Nodup

/-! Identifiers. -/

def isSystemId (text : String) : Bool := "SYS-".toList.isPrefixOf text.toList && matchesSlug (text.toList.drop 4)

def genericPrefixes : List (String × String) :=
  [("draft", "DRAFT"), ("flow", "FLOW"), ("incident", "INC"), ("integration", "INT"), ("investigation", "INV"),
    ("module", "MOD"), ("project", "PRJ"), ("service", "SVC"), ("team", "TEAM")]

/-- `[A-Za-z0-9._-]` -/
def isGenericIdChar (c : Char) : Bool := c.isAlphanum || c == '.' || c == '_' || c == '-'

/-- `_GENERIC_ID_PATTERNS` -/
def isGenericId (tag text : String) : Bool :=
  (tag ++ "-").toList.isPrefixOf text.toList &&
    let rest := text.toList.drop (tag.length + 1)
    !rest.isEmpty && rest.all isGenericIdChar

def validId (entityType value : String) : Bool :=
  match entityType with
  | "evidence" => isEvidenceId value
  | "claim" => isClaimId value
  | "observation" => isObservationId value
  | "decision" => isNumbered "DEC-" 3 value
  | "question" => isNumbered "Q-" 3 value
  | "risk" => isNumbered "RISK-" 3 value
  | "person" => isPersonId value
  | "system" => isSystemId value
  | other => ((genericPrefixes.lookup other).map fun tag => isGenericId tag value).getD false

def validParentTaskId (value : String) : Bool := isNumbered "TASK-" 3 value

/-! Paths. -/

/-- The parts of a `PurePosixPath`; the first one of an absolute path is its root. -/
def pathParts (path : String) : List (List Char) :=
  let parts := (path.toList.splitOn '/').filter fun part => part != [] && part != ['.']
  if path.toList.head? == some '/' then ['/'] :: parts else parts

/-- `PurePosixPath(path).stem` -/
def stem (path : String) : String :=
  let name := (pathParts path).getLastD []
  let suffix := (name.reverse.takeWhile (· != '.')).length
  if name.contains '.' && suffix != 0 && suffix + 1 < name.length then String.ofList (name.take (name.length - suffix - 1))
  else String.ofList name

/-- `_slug` -/
def slugOf (unicode : UnicodeData) (value : String) : String :=
  let ascii := (unicode.nfkd value).toList.filter fun c => c.toNat < 128
  let words := ((ascii.map Char.toLower).splitOnP fun c => !isLowerAlnum c).filter fun word => !word.isEmpty
  let slug := if words.isEmpty then "legacy-record".toList else ['-'].intercalate words
  String.ofList ((slug.take 48).reverse.dropWhile (· == '-')).reverse

def entityDirectories : List (String × String) :=
  [("claim", "02_knowledge/claims"), ("decision", "02_knowledge/decisions"), ("draft", "05_outbox/documentation"),
    ("evidence", "02_knowledge/evidence"), ("flow", "02_knowledge/flows"), ("incident", "03_work/incidents"),
    ("integration", "02_knowledge/integrations"), ("investigation", "03_work/investigations"),
    ("module", "02_knowledge/modules"), ("observation", "02_knowledge/observations"), ("person", "02_knowledge/people"),
    ("project", "02_knowledge/projects"), ("question", "02_knowledge/questions"), ("risk", "02_knowledge/risks"),
    ("service", "02_knowledge/services"), ("system", "02_knowledge/systems"), ("task", "03_work/tasks"),
    ("team", "02_knowledge/teams")]

/-- `_target_path`; none where the entity type has no directory. -/
def targetPath (entityType targetId : String) : Option String :=
  (entityDirectories.lookup entityType).map fun directory =>
    directory ++ "/" ++ String.ofList (targetId.toList.flatMap fun c => if c == '#' then "%23".toList else [c]) ++ ".md"

end Workctx.Migration
