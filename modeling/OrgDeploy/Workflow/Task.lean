import OrgDeploy.Render.Artifact
import OrgDeploy.Organization.Target

/-!
# Tasks

A task deploys or deletes one unit at one target. Its id `unit@account/region` is unique in a
graph; tasks are compared by unit, then account id, then region.

A create-or-update task carries the rendered artifact, or none when it could not be rendered
before the run (it is *deferred*), and possibly its content hash. It *needs late resolution* when
it is deferred or has dependencies: its artifact is then rendered again when it starts, against
the outputs its dependencies produced.

Each task names the *deployable* that carries it out; the type of deployables is a parameter.

Source: `orgform-workflow/src/task.rs:1-159` and `deployable.rs:1-32`.
-/

namespace OrgDeploy

open OrgDeploy.Json

/-- The id of a task: a unit at an account and region. -/
structure TaskId where
  unit : String
  accountId : String
  region : String
  deriving DecidableEq, Repr, Inhabited

namespace TaskId

/-- The task of a unit at a target. -/
def ofTarget (unit : String) (t : Target) : TaskId := ⟨unit, t.accountId, t.region⟩

/-- The task that produces an import. -/
def sourceOf (i : ImportRef) : TaskId := ⟨i.unit, i.accountId, i.region⟩

/-- Ids in order of unit, account id, then region. -/
def compare (a b : TaskId) : Ordering :=
  (Ord.compare a.unit b.unit).then
    ((Ord.compare a.accountId b.accountId).then (Ord.compare a.region b.region))

instance : Ord TaskId := ⟨TaskId.compare⟩

/-- `unit@account/region`. -/
def display (i : TaskId) : String := i.unit ++ "@" ++ i.accountId ++ "/" ++ i.region

/-- Inserts into a sorted list of distinct ids. -/
def insertSorted (i : TaskId) : List TaskId → List TaskId
  | [] => [i]
  | j :: rest =>
    match TaskId.compare i j with
    | .lt => i :: j :: rest
    | .eq => j :: rest
    | .gt => j :: insertSorted i rest

/-- A sorted list of distinct ids from any list. -/
def sortSet (ids : List TaskId) : List TaskId := ids.foldl (fun acc i => insertSorted i acc) []

end TaskId

/-- What a task does. -/
inductive TaskAction where
  | createOrUpdate
  | delete
  deriving DecidableEq, Repr

/-- The name of an action. -/
def TaskAction.name : TaskAction → String
  | .createOrUpdate => "create_or_update"
  | .delete => "delete"

/-- What a task carries for its action. -/
inductive TaskKind where
  | createOrUpdate (artifact : Option Artifact) (contentHash : Option String)
  | delete

/-- Why a task failed. -/
inductive TaskError where
  | backend (operation message : String)
  | hash (message : String)
  | lateResolution (message : String)
  | aborted (message : String)
  deriving DecidableEq, Repr

/-- The wording of a task error. -/
def TaskError.message : TaskError → String
  | .backend op m => s!"{op} failed: {m}"
  | .hash m => s!"content hash failed: {m}"
  | .lateResolution m => s!"late resolution failed: {m}"
  | .aborted m => s!"task aborted: {m}"

/-- A unit of work for one target, carried out by a deployable of type `δ`. -/
structure DeployTask (δ : Type) where
  id : TaskId
  target : Target
  kind : TaskKind
  imports : List ImportRef := []
  /-- The tasks that must succeed first, sorted. -/
  dependsOn : List TaskId := []
  deployable : δ

namespace DeployTask

/-- The action of a task. -/
def action (t : DeployTask δ) : TaskAction :=
  match t.kind with
  | .createOrUpdate .. => .createOrUpdate
  | .delete => .delete

/-- The rendered artifact of a create-or-update task. -/
def artifact? (t : DeployTask δ) : Option Artifact :=
  match t.kind with
  | .createOrUpdate a _ => a
  | .delete => none

/-- A create-or-update task without artifact. -/
def isDeferred (t : DeployTask δ) : Bool :=
  match t.kind with
  | .createOrUpdate none _ => true
  | _ => false

/-- Whether the artifact is rendered again when the task starts. -/
def needsLateResolution (t : DeployTask δ) : Bool :=
  t.action == .createOrUpdate && (t.isDeferred || !t.dependsOn.isEmpty)

end DeployTask

/-- Why a list of tasks is no graph. -/
inductive WorkflowError where
  | duplicateTask (id : TaskId)
  | unknownDependency (task dependency : TaskId)
  | dependencyCycle (tasks : List TaskId)
  deriving DecidableEq, Repr

/-- The wording of a workflow error. -/
def WorkflowError.message : WorkflowError → String
  | .duplicateTask id => s!"duplicate task: {id.display}"
  | .unknownDependency t d => s!"task {t.display} depends on unknown task {d.display}"
  | .dependencyCycle ts => "dependency cycle between " ++ " -> ".intercalate (ts.map TaskId.display)

end OrgDeploy
