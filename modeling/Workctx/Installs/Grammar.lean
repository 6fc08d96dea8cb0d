import Workctx.Domain.Patterns
import Workctx.Installs.Project

/-! The path grammar of the recovery: the targets an intent may name. -/

namespace Workctx.Installs
open Workctx.Domain

/-- `path.split("/")` -/
def pathParts (path : String) : List String := (path.toList.splitOn '/').map String.ofList

/-- `_BACKUP_STAMP` -/
def isBackupStamp (text : String) : Bool :=
  let characters := text.toList
  let tail := characters.drop 15
  (characters.take 8).length == 8 && (characters.take 8).all isAsciiDigit && (characters.drop 8).take 1 == ['T'] &&
    ((characters.drop 9).take 6).length == 6 && ((characters.drop 9).take 6).all isAsciiDigit &&
    (tail == ['Z'] || (tail.take 1 == ['.'] && tail.getLast? == some 'Z' && 3 ≤ tail.length &&
      ((tail.drop 1).dropLast).all isAsciiDigit))

/-- `_portable_skill_name` -/
def isPortableSkillName (name : String) : Bool := matchesSlug name.toList

def bridgePath : AgentClient → String
  | .codex => "AGENTS.md"
  | .claude => "CLAUDE.md"
  | .gemini => "GEMINI.md"

def mcpConfigurationPath : AgentClient → String
  | .codex => ".codex/config.toml"
  | .claude => ".mcp.json"
  | .gemini => ".gemini/settings.json"

def isSkillFile (site : Site) (root : List String) (parts : List String) : Bool :=
  4 ≤ parts.length && parts.take 2 == root && isPortableSkillName ((parts.drop 2).headD "") &&
    !site.credentialCapable (parts.drop 3) && (parts.drop 3).all fun part => part != ""

/-- `_safe_skill_target` -/
def isSafeSkillTarget (site : Site) (client : AgentClient) (parts : List String) : Bool :=
  isSkillFile site ["." ++ client.value, "skills"] parts

/-- The loop of `_safe_backup_target` over what is left of the path. -/
def backupRemainder (client : AgentClient) : List String → List String
  | ".workctx" :: "backups" :: stamp :: rest =>
    if isBackupStamp stamp then backupRemainder client rest else ".workctx" :: "backups" :: stamp :: rest
  | first :: rest => if first = client.value then backupRemainder client rest else first :: rest
  | [] => []

/-- `_safe_backup_target` -/
def isSafeBackupTarget (site : Site) (client : AgentClient) (parts : List String) : Bool :=
  4 ≤ parts.length && parts.take 2 == [".workctx", "backups"] && isBackupStamp ((parts.drop 2).headD "") &&
    let remainder := backupRemainder client (parts.drop 3)
    remainder == [bridgePath client] || isSafeSkillTarget site client remainder

def allowedTransactionTarget (site : Site) (client : AgentClient) (operation : FileOperation) (target : String) : Bool :=
  let parts := pathParts target
  target == manifestPath site client || target == bridgePath client || target == mcpConfigurationPath client ||
    isSafeSkillTarget site client parts || isSafeBackupTarget site client parts ||
    (client == .codex && operation == .create &&
      (target == ".agents/skills/registry.yaml" || isSkillFile site [".agents", "skills"] parts))

/-- The checks `_validated_recovery_operations` makes of the targets; the states and the evidence paths
of an operation have the right shape by construction. -/
def acceptsIntent (site : Site) (client : AgentClient) (operations : List Operation) : Bool :=
  !operations.isEmpty &&
    (operations.all fun operation =>
      site.relativePath operation.target && allowedTransactionTarget site client operation.operation operation.target) &&
    decide (operations.map fun operation => site.collisionKey operation.target).Nodup &&
    operations.getLast?.map (·.target) == some (manifestPath site client)

end Workctx.Installs
