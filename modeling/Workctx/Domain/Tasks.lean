import Workctx.Domain.Entities

/-! The task: its lifecycle, its front matter and the hierarchy of a collection of tasks. -/

namespace Workctx.Domain

inductive TaskType where
  | parent
  | subtask
deriving DecidableEq

inductive TaskPriority where
  | p0
  | p1
  | p2
  | p3
  | p4
deriving DecidableEq

inductive TaskStatus where
  | backlog
  | ready
  | active
  | blocked
  | waiting
  | done
  | cancelled
deriving DecidableEq

def TaskStatus.value : TaskStatus → String
  | .backlog => "backlog"
  | .ready => "ready"
  | .active => "active"
  | .blocked => "blocked"
  | .waiting => "waiting"
  | .done => "done"
  | .cancelled => "cancelled"

def TaskStatus.parse (text : String) : Option TaskStatus :=
  [.backlog, .ready, .active, .blocked, .waiting, .done, .cancelled].find? fun status => status.value == text

/-- The members a task adds to the shared front matter. -/
structure TaskFields where
  taskType : TaskType
  parentTask : Option String
  rootTask : String
  priority : TaskPriority
  owner : Option String
  requester : Option String
  waitingOn : List String
  dueAt : Option AwareDatetime
  nextAction : String
  dependencies : List String
  blockers : List String
  sourceObservations : List String
deriving DecidableEq

/-- `Task`; its status is kept as text. -/
abbrev Task := EntityFrontmatter TaskFields

/-- `PARENT_TASK_ID_PATTERN` -/
def isParentTaskId (text : String) : Bool := isTaskId text && text.length == 13

/-- `SUBTASK_ID_PATTERN` -/
def isSubtaskId (text : String) : Bool := isTaskId text && text.length == 18

namespace Task

def statusOf (task : Task) : Option TaskStatus := task.status.bind TaskStatus.parse

def requireConsistentHierarchy (task : Task) : Except String Unit :=
  match task.extras.taskType with
  | .parent => do
    check (isParentTaskId task.id) "parent task IDs must use TASK-YYYY-NNN"
    check task.extras.parentTask.isNone "parent tasks cannot declare parent_task"
    check (task.extras.rootTask == task.id) "parent tasks must be self-rooted"
  | .subtask => do
    check (isSubtaskId task.id) "subtask IDs must use TASK-YYYY-NNN-STNN"
    let expectedParent := String.ofList (task.id.toList.take 13)
    check (task.extras.parentTask == some expectedParent) "subtask parent_task must match its TASK-YYYY-NNN prefix"
    check (task.extras.rootTask == expectedParent) "subtask root_task must match its parent task"

def modelValidate (library : Library) (task : Task) : Except String Unit := do
  EntityFrontmatter.modelValidate library task
  constrain (isTaskId task.id) "id"
  constrain (task.entityType == "task") "entity_type"
  constrain (task.extras.parentTask.all isParentTaskId) "parent_task"
  constrain (isParentTaskId task.extras.rootTask) "root_task"
  constrain task.statusOf.isSome "status"
  constrain (task.extras.nextAction != "") "next_action"
  EntityFrontmatter.requireUniqueValues task.extras.waitingOn
  EntityFrontmatter.requireUniqueValues task.extras.dependencies
  EntityFrontmatter.requireUniqueValues task.extras.blockers
  EntityFrontmatter.requireUniqueValues task.extras.sourceObservations
  requireConsistentHierarchy task

end Task
end Workctx.Domain
