import OrgDeploy.Plan.Basic
import OrgDeploy.Workflow.Run
import OrgDeploy.Deploy.Plugin
import OrgDeploy.State.Store

/-!
# The deployment engine: configuration, errors and collaborators

The engine works over a world of type `σ` through its `Services`: the organization directory,
the state store, the stack backend, the plugins, and the time it stamps records and commits
with.

A unit is carried out by a `Deployable`: a stack goes to the backend under the unit's name (its
artifact as pretty JSON text, with its parameters); a plugin unit goes to its plugin, applied
with the rendered configuration and deleted with the configuration as written. The content hash
of a stack artifact is its digest; a plugin computes its own.

While a graph runs, the world is paired with the state being built: `engineCollaborators` renders
late-resolved tasks against that state, and records every success in it (the definition and the
record of a create-or-update, the removal of a delete).

Source: `orgform-engine/src/config.rs:1-52`, `error.rs:1-66`, `hooks.rs:1-82`, `units.rs:1-98`
and `engine.rs:26-46`, `engine.rs:384-400`.
-/

namespace OrgDeploy

open OrgDeploy.Json

/-- How the engine runs. -/
structure EngineConfig where
  maxConcurrent : Nat := 1
  failureTolerance : Nat := 0
  /-- Regions that replace those of every binding, when there are any. -/
  regions : List String := []
  deriving DecidableEq, Repr

namespace EngineConfig

/-- The JSON shape of a configuration. -/
def shape : Shape EngineConfig where
  name := "struct EngineConfig"
  init := {}
  fields := [
    Field.of "max_concurrent" (Decoder.natural "usize" Number.natLimit)
      fun v c => { c with maxConcurrent := v },
    Field.of "failure_tolerance" (Decoder.natural "usize" Number.natLimit)
      fun v c => { c with failureTolerance := v },
    Field.of "regions" (Decoder.list Decoder.string) fun v c => { c with regions := v }]

/-- Decodes a configuration. -/
def decoder : Decoder EngineConfig := Decoder.record shape

/-- The regions that replace the bindings' regions. -/
def regionOverride (c : EngineConfig) : Option (List String) :=
  if c.regions.isEmpty then none else some c.regions

/-- The options of a run. -/
def runOptions (c : EngineConfig) : RunOptions :=
  ⟨max 1 (min c.maxConcurrent maxPermits), c.failureTolerance⟩

end EngineConfig

/-- Why an engine operation failed. -/
inductive EngineError where
  | template (error : ConfigError)
  | organization (error : OrganizationError)
  | state (error : StateError)
  | invalidInput (errors : List PlanError)
  | unknownUnit (name : String)
  | resolve (unit : String) (error : ResolveError)
  | render (unit target : String) (error : RenderError)
  | unknownDefinition (unit : String)
  | unknownPlugin (unit plugin : String)
  | graph (error : WorkflowError)
  deriving DecidableEq, Repr

/-- The wording of an engine error. -/
def EngineError.message : EngineError → String
  | .template e => s!"invalid template: {e.message}"
  | .organization e => e.message
  | .state e => e.message
  | .invalidInput errors => "planning aborted: " ++ "; ".intercalate (errors.map PlanError.message)
  | .unknownUnit name => s!"unknown unit '{name}'"
  | .resolve unit e => s!"unit '{unit}': {e.message}"
  | .render unit target e => s!"unit '{unit}' at {target}: {e.message}"
  | .unknownDefinition unit => s!"unit '{unit}' has no known definition"
  | .unknownPlugin unit plugin => s!"unit '{unit}' uses unknown plugin '{plugin}'"
  | .graph e => e.message

/-- What carries out the tasks of a unit. -/
inductive Deployable (σ : Type) where
  /-- A stack, deployed by the backend under this name. -/
  | stack (name : String)
  /-- A plugin with the unit's configuration as written. -/
  | plugin (p : Plugin σ) (config : Value)

/-- What the engine uses of the world. -/
structure Services (σ : Type) where
  config : EngineConfig := {}
  directory : Directory σ
  store : StateStore σ
  backend : Backend σ
  plugins : PluginRegistry σ := {}
  /-- The time records and commits are stamped with. -/
  now : Timestamp

namespace Services

variable (sv : Services σ)

/-- The deployable of a unit; a plugin must be known. -/
def deployable (u : UnitDef) : Except PlanError (Deployable σ) :=
  match u.kind with
  | .stack .. => .ok (.stack u.name)
  | .plugin name config =>
    match sv.plugins.get name with
    | some p => .ok (.plugin p config)
    | none => .error (.unknownPlugin u.name name)

end Services

/-- The content hash of an artifact, reading the world. -/
def Deployable.contentHash (w : σ) : Deployable σ → Artifact → Except TaskError String
  | .stack _, a => .ok a.digest
  | .plugin p _, a => (p.contentHash a.body w).mapError fun e => .hash e.message

/-- The world of a run: the engine's world and the state being built. -/
abbrev RunWorld (σ : Type) := σ × State

/-- The engine's world inside a run's world. -/
def worldSlot : Slot (RunWorld σ) σ := ⟨Prod.fst, fun w p => (w, p.2)⟩

/-- A backend fault as a task error of an operation. -/
def BackendFault.toTaskError (operation : String) : BackendFault → TaskError
  | .failed e => .backend operation e.message
  | .aborted m => .aborted m

/-- The record a successful create-or-update leaves. -/
def recordOf (t : DeployTask δ) (o : Outcome) (now : Timestamp) : Record :=
  { lastCommittedHash := o.contentHash.getD "", accountId := t.target.accountId,
    region := t.target.region, accountLogicalId := t.target.accountLogicalId,
    outputs := o.outputs, deployedAt := now }

/-- What a success leaves in the state being built: a create-or-update sets the unit's definition,
when the template has the unit, and the target's record; a delete removes the target's record. -/
def recordSuccess (units : List UnitDef) (now : Timestamp) (t : DeployTask δ) (outcome : Outcome)
    (st : State) : State :=
  match t.action with
  | .createOrUpdate =>
    let st := match units.find? (·.name == t.id.unit) with
      | some u => st.setDefinition u
      | none => st
    st.setRecord t.id.unit (recordOf t outcome now)
  | .delete => (st.removeRecord t.id.unit t.target.accountId t.target.region).2

/-- The collaborators of a run for the units of a template. -/
def engineCollaborators (sv : Services σ) (o : Organization) (units : List UnitDef) :
    Collaborators (Deployable σ) (RunWorld σ) where
  resolve t := fun (w, st) =>
    match units.find? (·.name == t.id.unit) with
    | none =>
      (.error (.lateResolution s!"unit '{t.id.unit}' is not part of the template"), (w, st))
    | some u => ((render o st u t.target).mapError (.lateResolution ·.message), (w, st))
  completed t outcome := fun (w, st) => (w, recordSuccess units sv.now t outcome st)
  contentHash d a := fun (w, st) => (Deployable.contentHash w d a, (w, st))
  apply d target a :=
    match d with
    | .stack name =>
      worldSlot.run (sv.backend.apply name target a.text a.parameters) (·.toTaskError "apply")
    | .plugin p _ => worldSlot.run (p.apply target a.body) (.backend "apply" ·.message)
  delete d target :=
    match d with
    | .stack name => worldSlot.run (sv.backend.delete name target) (·.toTaskError "delete")
    | .plugin p config => worldSlot.run (p.delete target config) (.backend "delete" ·.message)
  applyWaits d target :=
    match d with
    | .stack name => sv.backend.applyWaits name target
    | .plugin p _ => p.applyWaits
  deleteWaits d target :=
    match d with
    | .stack name => sv.backend.deleteWaits name target
    | .plugin p _ => p.deleteWaits

end OrgDeploy
