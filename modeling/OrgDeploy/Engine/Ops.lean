import OrgDeploy.Engine.Basic

/-!
# The deployment engine: operations

Every operation reads the world, and `deploy`, `deleteUnit` and `init` change it.

* `deploy` parses the template, loads the state (it must exist) and the organization, and plans.
  Errors in the template's input abort before anything runs (`invalidInput` with those errors);
  other planning errors leave their units out. The graph runs; the state it built is committed,
  and it remembers the template text when nothing went wrong.
* `plan` does the planning of `deploy` alone, on an empty state when there is none.
* `renderUnit` renders one unit of a template for each of its targets.
* `describe` lists the records of every unit, or of one (which must have some).
* `deleteUnit` deletes every deployment of a unit, with the definition it was last applied with
  (or the one in the last full template), and commits.
* `init` commits an empty state unless there is one; it tells whether it did.

Loading the organization exchanges identities with the state. Committing stamps the state with
the time of the services.

Planning a template (`planTemplate`): each unit of the template is resolved, rendered for each
target and planned (`planUnit`); the imports of its records are those of the definition it was
deployed with. Units with records that the template no longer has are planned for deletion with
their deployed definition. Then the plans are assembled.

Source: `orgform-engine/src/engine.rs:48-456` (`DeploymentEngine`).
-/

namespace OrgDeploy

/-- What a deployment did: the planning errors and the run. -/
structure DeployReport where
  planningErrors : List PlanError
  run : RunResult
  events : List RunEvent

/-- A deployment succeeds when planning met no error and the run succeeded. -/
def DeployReport.isSuccess (r : DeployReport) : Bool := r.planningErrors.isEmpty && r.run.isSuccess

/-- The tasks deleting a unit at each of its targets. -/
def deletionTasks (name : String) (targets : List Target) (d : δ) : List (DeployTask δ) :=
  targets.map fun t => { id := TaskId.ofTarget name t, target := t, kind := .delete, deployable := d }

namespace Services

variable (sv : Services σ)

/-- Loads the state. -/
def loadState (w : σ) : Except EngineError State := (sv.store.load w).mapError .state

/-- Loads the state, or an empty one when there is none. -/
def loadStateOrDefault (w : σ) : Except EngineError State :=
  match sv.store.load w with
  | .ok s => .ok s
  | .error (.notFound _) => .ok {}
  | .error e => .error (.state e)

/-- Loads the organization and exchanges identities with the state. -/
def loadOrganization (st : State) (w : σ) : Except EngineError (State × Organization) := do
  let o ← (sv.directory w).mapError .organization
  pure (st.bindOrganization o)

/-- Stamps the state and saves it. -/
def commit (st : State) : Act σ EngineError Unit :=
  (sv.store.save { st with committedAt := some sv.now }).adapt .state

/-- The imports a unit's definition performs at each of its records, by record key. -/
def deployedImports (o : Organization) (st : State) (u : UnitDef) : Table (List ImportRef) :=
  Table.ofList ((st.records u.name).map fun r =>
    (r.key, (collectImports o st u r.target).toOption.getD []))

/-- The definition a unit was deployed with: recorded, or in the last full template. -/
def deployedDefinition (st : State) (previous : Option Template) (name : String) :
    Option UnitDef :=
  match st.definition? name with
  | some u => some u
  | none => previous.bind (·.unit? name)

/-- The render of a unit for one target, with the imports it performs. -/
def targetRender (o : Organization) (st : State) (u : UnitDef) (t : Target) : TargetRender :=
  let result := render o st u t
  let imports := match result with
    | .ok a => a.imports
    | .error _ => (collectImports o st u t).toOption.getD []
  ⟨t, imports, result⟩

/-- Plans one unit of a template. -/
def planTemplateUnit (o : Organization) (st : State) (previous : Option Template) (w : σ)
    (u : UnitDef) : Except PlanError (UnitPlan (Deployable σ)) := do
  let d ← sv.deployable u
  let targets ← (u.binding.resolve o sv.config.regionOverride).mapError (.resolve u.name)
  let deployed := (deployedDefinition st previous u.name).getD u
  planUnit st (Deployable.contentHash w)
    ⟨u.name, d, targets.map (targetRender o st u), deployedImports o st deployed⟩

/-- Plans the deletion of a unit the template no longer has. -/
def planRemovedUnit (o : Organization) (st : State) (previous : Option Template) (w : σ)
    (name : String) : Except PlanError (UnitPlan (Deployable σ)) := do
  let u ← match deployedDefinition st previous name with
    | some u => pure u
    | none => throw (.unknownDefinition name)
  let d ← sv.deployable u
  planUnit st (Deployable.contentHash w) ⟨name, d, [], deployedImports o st u⟩

/-- Collects the plan of each unit, or its error. -/
def collectPlans (plan : String → Except PlanError (UnitPlan δ)) (names : List String)
    (acc : List PlanError × List (UnitPlan δ)) : List PlanError × List (UnitPlan δ) :=
  names.foldl (fun (errors, plans) name =>
    match plan name with
    | .ok p => (errors, plans ++ [p])
    | .error e => (errors ++ [e], plans)) acc

/-- Plans a template against the state and the organization. -/
def planTemplate (template : Template) (o : Organization) (st : State) (w : σ) :
    Plan (Deployable σ) :=
  let previous := st.previousTemplateDef?
  let acc := template.units.foldl (fun (errors, plans) u =>
    match sv.planTemplateUnit o st previous w u with
    | .ok p => (errors, plans ++ [p])
    | .error e => (errors ++ [e], plans)) (([] : List PlanError), [])
  let current := template.unitNames
  let removed := st.unitNames.filter fun n => !current.contains n
  let (errors, plans) := collectPlans (sv.planRemovedUnit o st previous w) removed acc
  let plan := assemble plans
  { plan with errors := errors ++ plan.errors }

/-- Parses a template text. -/
def parseTemplate (text : String) : Except EngineError Template :=
  (Template.parse text).mapError .template

/-- Runs a graph with the engine's collaborators and gives back the state it built. -/
def runPlanned (o : Organization) (units : List UnitDef) (g : TaskGraph (Deployable σ))
    (cancelled : Bool) (st : State) : Act σ EngineError (RunResult × List RunEvent × State) :=
  fun w =>
    let (result, events, (w, st)) :=
      runGraph sv.config.runOptions g (engineCollaborators sv o units) cancelled (w, st)
    (.ok (result, events, st), w)

/-- Deploys a template text. -/
def deploy (text : String) (cancelled : Bool) : Act σ EngineError DeployReport := do
  let template ← liftExcept (parseTemplate text)
  let w ← get
  let st ← liftExcept (sv.loadState w)
  let (st, o) ← liftExcept (sv.loadOrganization st w)
  let plan := sv.planTemplate template o st w
  if plan.hasInputErrors then throw (.invalidInput (plan.errors.filter PlanError.isInputError))
  let (result, events, st) ← sv.runPlanned o template.units plan.graph cancelled st
  let st := if plan.errors.isEmpty && result.isSuccess then { st with previousTemplate := some text }
    else st
  sv.commit st
  pure ⟨plan.errors, result, events⟩

/-- Plans a template text without running it. -/
def plan (text : String) : Act σ EngineError (Plan (Deployable σ)) := do
  let template ← liftExcept (parseTemplate text)
  let w ← get
  let st ← liftExcept (sv.loadStateOrDefault w)
  let (st, o) ← liftExcept (sv.loadOrganization st w)
  pure (sv.planTemplate template o st w)

/-- Renders one unit of a template text for each of its targets. -/
def renderUnit (text name : String) : Act σ EngineError (List (Target × Artifact)) := do
  let template ← liftExcept (parseTemplate text)
  let u ← match template.unit? name with
    | some u => pure u
    | none => throw (.unknownUnit name)
  let w ← get
  let st ← liftExcept (sv.loadStateOrDefault w)
  let (st, o) ← liftExcept (sv.loadOrganization st w)
  let targets ← liftExcept ((u.binding.resolve o sv.config.regionOverride).mapError (EngineError.resolve u.name))
  liftExcept (targets.mapM fun t => ((render o st u t).mapError (EngineError.render u.name t.key)).map (t, ·))

/-- The records of every unit, or of one unit. -/
def describe (unit : Option String) : Act σ EngineError (Table (List Record)) := do
  let st ← liftExcept (sv.loadState (← get))
  let described := (st.unitNames.filter fun n => unit.all (· == n)).map fun n => (n, st.records n)
  if let some name := unit then
    if described.isEmpty then throw (.unknownUnit name)
  pure described

/-- Deletes every deployment of a unit. -/
def deleteUnit (name : String) (cancelled : Bool) : Act σ EngineError DeployReport := do
  let w ← get
  let st ← liftExcept (sv.loadState w)
  let targets := (st.records name).map Record.target
  if targets.isEmpty then throw (.unknownUnit name)
  let (st, o) ← liftExcept (sv.loadOrganization st w)
  let definition ← match deployedDefinition st st.previousTemplateDef? name with
    | some u => pure u
    | none => throw (.unknownDefinition name)
  let d ← match sv.deployable definition with
    | .ok d => pure d
    | .error _ => throw (.unknownPlugin name (definition.plugin?.getD ""))
  let g ← liftExcept ((TaskGraph.build (deletionTasks name targets d)).mapError EngineError.graph)
  let (result, events, st) ← sv.runPlanned o [definition] g cancelled st
  sv.commit st
  pure ⟨[], result, events⟩

/-- Commits an empty state unless there is one; tells whether it did. -/
def init : Act σ EngineError Bool := do
  match sv.store.load (← get) with
  | .ok _ => pure false
  | .error (.notFound _) => do
    sv.commit {}
    pure true
  | .error e => throw (.state e)

end Services

end OrgDeploy
