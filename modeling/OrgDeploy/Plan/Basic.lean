import OrgDeploy.Workflow.Graph
import OrgDeploy.Render.Basic
import OrgDeploy.Resolve
import OrgDeploy.State.Basic

/-!
# Planning

The planner turns the renders of each unit into tasks and the tasks of all units into one graph.

`planUnit`, for one unit with its deployable of type `δ`:

* a target rendered to an artifact gets a create-or-update task with the artifact and its content
  hash, unless the unit's record there has that hash already (the target is unchanged); a failed
  hash is `hash`;
* a target whose render misses imported outputs gets a deferred task (no artifact) carrying the
  imports the render would perform; the missing imports are kept to check later;
* any other render error is `render`, and the unit gets no plan;
* every recorded target of the unit that is not rendered now gets a delete task, carrying the
  imports its deployed definition performed there.

`assemble` links the tasks of all plans. A create-or-update task depends on the create-or-update
tasks producing its imports; a delete task waits for the delete tasks of the units that import
from it. Before linking, a unit with a deferred task that misses an output no planned task
produces (or that it would produce itself) is dropped with `unresolvedExport`; a dependency cycle
drops the units on it with `dependencyCycle`; both repeat until the graph builds. Any other
graph error ends planning with no tasks.

Source: `orgform-planner/src/planner.rs:1-293` and `error.rs:1-88`.
-/

namespace OrgDeploy

/-- Why a unit could not be planned. -/
inductive PlanError where
  | resolve (unit : String) (error : ResolveError)
  | render (unit : String) (error : RenderError)
  | unresolvedExport (unit : String) (task : TaskId) (missing : ImportRef)
  | hash (unit target : String) (error : TaskError)
  | unknownPlugin (unit plugin : String)
  | unknownDefinition (unit : String)
  | dependencyCycle (units : List String) (error : WorkflowError)
  | graph (message : String)
  deriving DecidableEq, Repr

namespace PlanError

/-- The wording of a planning error. -/
def message : PlanError → String
  | .resolve unit e => s!"unit '{unit}': {e.message}"
  | .render _ e => e.message
  | .unresolvedExport unit task i =>
    s!"unit '{unit}' task {task.display} imports {i.display}, which is neither recorded nor planned"
  | .hash unit target e => s!"unit '{unit}' at {target}: {e.message}"
  | .unknownPlugin unit plugin => s!"unit '{unit}' uses unknown plugin '{plugin}'"
  | .unknownDefinition unit =>
    s!"unit '{unit}' was removed but its deployed definition is unknown; records kept"
  | .dependencyCycle units e =>
    let names := ", ".intercalate units
    s!"units {names} form a cycle: {e.message}"
  | .graph m => s!"invalid task graph: {m}"

/-- Errors in the template's input itself: invalid expressions and failed hashes. -/
def isInputError : PlanError → Bool
  | .render _ (.invalidExpression ..) => true
  | .hash .. => true
  | _ => false

/-- The units an error concerns. -/
def units : PlanError → List String
  | .resolve unit _ | .render unit _ | .unresolvedExport unit .. | .hash unit .. => [unit]
  | .unknownPlugin unit _ | .unknownDefinition unit => [unit]
  | .dependencyCycle units _ => units
  | .graph _ => []

end PlanError

/-- The imports a render misses. -/
def RenderError.missingImports : RenderError → List ImportRef
  | .unresolvedExport _ _ missing => missing
  | .invalidExpression .. => []

/-- A unit rendered for one target: the imports it performs and the outcome. -/
structure TargetRender where
  target : Target
  imports : List ImportRef
  result : Except RenderError Artifact

/-- What the planner knows of one unit. -/
structure UnitInput (δ : Type) where
  name : String
  deployable : δ
  renders : List TargetRender := []
  /-- For each recorded target key, the imports the deployed definition performs there. -/
  deployedImports : Table (List ImportRef) := []

/-- The tasks of one unit, and the missing imports of its deferred tasks by task id. -/
structure UnitPlan (δ : Type) where
  unit : String
  tasks : List (DeployTask δ)
  deferred : List (TaskId × RenderError)

/-- The graph to run and the errors met while planning. -/
structure Plan (δ : Type) where
  graph : TaskGraph δ
  errors : List PlanError

/-- Whether planning met an error in the template's input. -/
def Plan.hasInputErrors (p : Plan δ) : Bool := p.errors.any PlanError.isInputError

/-- Keeps the entries of a list sorted by task id; a new entry replaces one with its id. -/
def insertById (id : TaskId) (v : α) : List (TaskId × α) → List (TaskId × α)
  | [] => [(id, v)]
  | (j, w) :: rest =>
    match TaskId.compare id j with
    | .lt => (id, v) :: (j, w) :: rest
    | .eq => (id, v) :: rest
    | .gt => (j, w) :: insertById id v rest

/-- The task of a render, if one is needed, or the error that stops the unit. -/
def renderTask (state : State) (hash : δ → Artifact → Except TaskError String)
    (name : String) (deployable : δ) (r : TargetRender) :
    Except PlanError (Option (DeployTask δ × Option RenderError)) :=
  let record := state.record? name r.target.accountId r.target.region
  let id := TaskId.ofTarget name r.target
  match r.result with
  | .ok artifact => do
    let h ← (hash deployable artifact).mapError (.hash name r.target.key)
    if record.any (·.lastCommittedHash == h) then pure none
    else pure (some ({ id, target := r.target, kind := .createOrUpdate (some artifact) (some h),
                       imports := artifact.imports, deployable }, none))
  | .error (.unresolvedExport u t missing) =>
    pure (some ({ id, target := r.target, kind := .createOrUpdate none none,
                  imports := r.imports, deployable }, some (.unresolvedExport u t missing)))
  | .error e => throw (.render name e)

/-- Plans one unit. -/
def planUnit (state : State) (hash : δ → Artifact → Except TaskError String)
    (input : UnitInput δ) : Except PlanError (UnitPlan δ) := do
  let selected := input.renders.map (·.target.key)
  let (tasks, deferred) ← input.renders.foldlM (fun (tasks, deferred) r => do
    match ← renderTask state hash input.name input.deployable r with
    | none => pure (tasks, deferred)
    | some (t, none) => pure (tasks ++ [t], deferred)
    | some (t, some e) => pure (tasks ++ [t], insertById t.id e deferred))
    (([] : List (DeployTask δ)), ([] : List (TaskId × RenderError)))
  let deletes := (state.records input.name).filterMap fun record =>
    let key := record.key
    if selected.contains key then none
    else some { id := TaskId.ofTarget input.name record.target, target := record.target,
                kind := .delete, imports := (input.deployedImports.get? key).getD [],
                deployable := input.deployable }
  pure ⟨input.name, tasks ++ deletes, deferred⟩

/-- The ids of the tasks of an action. -/
def taskIds (plans : List (UnitPlan δ)) (action : TaskAction) : List TaskId :=
  (plans.flatMap (·.tasks)).filter (·.action == action) |>.map (·.id)

/-- The units whose deferred tasks miss an output no create task produces. -/
def unresolvable (plans : List (UnitPlan δ)) (creates : List TaskId) : List (String × PlanError) :=
  plans.filterMap fun p =>
    let absent := p.deferred.findSome? fun (task, e) =>
      (e.missingImports.find? fun i =>
        let source := TaskId.sourceOf i
        source == task || !creates.contains source).map (task, ·)
    absent.map fun (task, i) => (p.unit, .unresolvedExport p.unit task i)

/-- Links tasks to the tasks they depend on. -/
def linkTasks (plans : List (UnitPlan δ)) (creates : List TaskId) : List (DeployTask δ) :=
  let deletes := taskIds plans .delete
  let tasks := plans.flatMap (·.tasks)
  let (tasks, consumers) := tasks.foldl (fun (done, consumers) t =>
    match t.action with
    | .createOrUpdate =>
      let deps := t.imports.foldl (fun deps i =>
        let source := TaskId.sourceOf i
        if source != t.id && creates.contains source then TaskId.insertSorted source deps
        else deps) t.dependsOn
      (done ++ [{ t with dependsOn := deps }], consumers)
    | .delete =>
      let consumers := t.imports.foldl (fun consumers i =>
        let source := TaskId.sourceOf i
        if source != t.id && deletes.contains source then
          insertById source (TaskId.insertSorted t.id ((consumers.lookup source).getD [])) consumers
        else consumers) consumers
      (done ++ [t], consumers)) (([] : List (DeployTask δ)), ([] : List (TaskId × List TaskId)))
  (tasks.foldl (fun (done, consumers) t =>
    if t.action == .delete then
      match consumers.lookup t.id with
      | some cs =>
        (done ++ [{ t with dependsOn := cs.foldl (fun ds c => TaskId.insertSorted c ds) t.dependsOn }],
         consumers.filter (·.1 != t.id))
      | none => (done ++ [t], consumers)
    else (done ++ [t], consumers)) (([] : List (DeployTask δ)), consumers)).1

/-- The sorted distinct units of some tasks. -/
def unitsOf (ids : List TaskId) : List String :=
  ids.foldl (fun acc i => insertSortedStr i.unit acc) []

/-- Assembles the plans of all units into one graph, dropping units that cannot run, within
`fuel` rounds. -/
def assembleWithin : Nat → List (UnitPlan δ) → List PlanError → Plan δ
  | 0, _, errors => ⟨⟨#[], #[], #[]⟩, errors⟩
  | fuel + 1, plans, errors =>
    let creates := taskIds plans .createOrUpdate
    match unresolvable plans creates with
    | [] =>
      match TaskGraph.build (linkTasks plans creates) with
      | .ok g => ⟨g, errors⟩
      | .error (.dependencyCycle ts) =>
        let units := unitsOf ts
        assembleWithin fuel (plans.filter fun p => !units.contains p.unit)
          (errors ++ [.dependencyCycle units (.dependencyCycle ts)])
      | .error e => ⟨⟨#[], #[], #[]⟩, errors ++ [.graph e.message]⟩
    | dropped =>
      let names := dropped.map (·.1)
      assembleWithin fuel (plans.filter fun p => !names.contains p.unit)
        (errors ++ dropped.map (·.2))

/-- Assembles the plans of all units into one graph. -/
def assemble (plans : List (UnitPlan δ)) : Plan δ := assembleWithin (plans.length + 1) plans []

end OrgDeploy
