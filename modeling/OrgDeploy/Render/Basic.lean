import OrgDeploy.Render.Artifact
import OrgDeploy.Render.Placeholder
import OrgDeploy.Render.Parameter
import OrgDeploy.Template.Unit
import OrgDeploy.State.Basic

/-!
# Rendering a unit for a target

A render walks a unit's template (and then its parameters, in name order), or a plugin's
configuration, and evaluates four kinds of expression, each an object with a single entry:

* `{"Ref": id}`: the physical id of an organization entity (the state's binding first), or the
  target's account id for a current-account id. An id that names nothing stays as written; an
  argument that is not a string is an error.
* `{"Fn::GetAtt": "id.Attribute"}` or `[id, attribute]`: an attribute of an entity (see
  `Scope.attributeOf`). Other arguments are walked and kept as the expression.
* `{"Fn::Sub": text}`, `[text]` or `[text, variables]`: placeholders in the text are replaced
  (`interpolate`); a placeholder naming one of the variables is left for the deployment. The
  expression becomes a string once every placeholder is replaced, and stays otherwise.
* `{"Fn::CopyValue": [unit, output, account?, region?]}`: an output of another unit's
  deployment, at the target's account and region unless others are named. Every such import is
  recorded; one without a recorded output is *missing* and the expression stays.

Any other object or array is walked entry by entry (keys in order). `render` fails with
`unresolvedExport` when an import is missing; `collectImports` gives every import regardless.
The first invalid expression in walk order is the error of both.

Source: `orgform-render/src/renderer.rs:1-352` (`TemplateRenderer`, `Walker`) and
`error.rs:1-41`.
-/

namespace OrgDeploy

open OrgDeploy.Json OrgDeploy.Text

/-- Why a unit could not be rendered. -/
inductive RenderError where
  /-- Imports whose outputs are not recorded, for the target with key `target`. -/
  | unresolvedExport (unit target : String) (missing : List ImportRef)
  | invalidExpression (unit function message : String)
  deriving DecidableEq, Repr

/-- The wording of a render error. -/
def RenderError.message : RenderError → String
  | .unresolvedExport unit target missing =>
    let names := ", ".intercalate (missing.map ImportRef.display)
    s!"unit '{unit}' at {target} imports unavailable outputs: {names}"
  | .invalidExpression unit function message => s!"invalid {function} in unit '{unit}': {message}"

/-- The text before and after the first occurrence of a character. -/
def splitOnce (s : String) (c : Char) : Option (String × String) :=
  let cs := s.toList
  if cs.contains c then
    some (String.ofList (cs.takeWhile (· != c)), String.ofList ((cs.dropWhile (· != c)).drop 1))
  else none

/-- What a render sees: the organization, the state, the unit's name and the target. -/
structure Scope where
  organization : Organization
  state : State
  unit : String
  target : Target

/-- The imports a walk has met, and those of them without a recorded output; both sorted. -/
structure Imports where
  used : List ImportRef := []
  missing : List ImportRef := []
  deriving DecidableEq, Repr

/-- A computation that walks a unit: it collects imports and may fail. -/
abbrev Walk := StateT Imports (Except RenderError)

namespace Scope

/-- The error for an invalid expression of this unit. -/
def invalid (sc : Scope) (function message : String) : RenderError :=
  .invalidExpression sc.unit function message

/-- The physical id of an entity: the state's binding, else the entity's own. -/
def physicalId (sc : Scope) (e : Entity) : Option String :=
  match sc.state.physicalId? e.logicalId with
  | some pid => some pid
  | none => e.physicalId

/-- The physical id a logical id stands for. -/
def reference (sc : Scope) (name : String) : Option String :=
  if isCurrentAccountId name then some sc.target.accountId
  else (sc.organization.get? name).bind sc.physicalId

/-- The account being rendered for: by the target's account id, else by its logical id, else
an account made up from the target. -/
def currentAccount (sc : Scope) : Entity :=
  match sc.organization.findAccountByPhysicalId? sc.target.accountId with
  | some e => e
  | none =>
    match sc.organization.get? sc.target.accountLogicalId with
    | some e => e
    | none => { logicalId := sc.target.accountLogicalId, physicalId := some sc.target.accountId }

/-- An attribute of an entity. `AccountId` is the physical id (empty when there is none); a
known attribute without value is empty; an unknown attribute or entity has no value. -/
def attributeOf (sc : Scope) (id name : String) : Option String :=
  let current := isCurrentAccountId id
  let entity := if current then some sc.currentAccount else sc.organization.get? id
  entity.bind fun e =>
    if name = "AccountId" then
      some (if current then sc.target.accountId else (sc.physicalId e).getD "")
    else
      match e.attr name with
      | .value v => some v
      | .missing => some ""
      | .unknown => none

/-- The value of a placeholder body: `id.Attribute` or a logical id. -/
def placeholder (sc : Scope) (e : String) : Option String :=
  match splitOnce e '.' with
  | some (id, name) => sc.attributeOf id name
  | none => sc.reference e

/-- The account id an import names: the target's for a current-account id, the physical id of
an account of the organization, else the text itself. -/
def accountId (sc : Scope) (account : String) : String :=
  if isCurrentAccountId account then sc.target.accountId
  else
    match (sc.organization.get? account).filter Entity.isAccount with
    | some e => (sc.physicalId e).getD account
    | none => account

/-- `Fn::Sub` over a text, given the names and rendered values of its variables. -/
def sub (sc : Scope) (text : String) (vars : Option (List String × Fields)) : Value :=
  let locals := (vars.map Prod.fst).getD []
  let r := interpolate text fun e => if locals.contains e then none else sc.placeholder e
  if r.complete then .str r.text
  else
    match vars with
    | some (_, rendered) => .obj [("Fn::Sub", .arr [.str r.text, .obj rendered])]
    | none => .obj [("Fn::Sub", .str r.text)]

/-- The arguments of a `Fn::CopyValue` after walking: unit, output, account and region. -/
def copyArgs (sc : Scope) (rendered : Value) :
    Except RenderError (String × String × Option String × Option String) := do
  let args ← match rendered with
    | .arr items =>
      match items.mapM Value.getStr? with
      | some args => pure args
      | none => throw (sc.invalid "Fn::CopyValue" "expected a list of strings")
    | _ => throw (sc.invalid "Fn::CopyValue" "expected a list of strings")
  let parts ← match args with
    | [u, o] => pure (u, o, none, none)
    | [u, o, a] => pure (u, o, some a, none)
    | [u, o, a, r] => pure (u, o, some a, some r)
    | _ => throw (sc.invalid "Fn::CopyValue"
        "expected [unit, output] with optional account and region")
  if parts.1.isEmpty || parts.2.1.isEmpty then
    throw (sc.invalid "Fn::CopyValue" "unit and output must not be empty")
  pure parts

/-- `Fn::CopyValue` with walked arguments: records the import, and gives the recorded output
or, when there is none, records it as missing and keeps the expression. -/
def copyValue (sc : Scope) (rendered : Value) : Walk Value := do
  let (unit, output, account, region) ← StateT.lift (sc.copyArgs rendered)
  let i : ImportRef :=
    ⟨unit, (account.map sc.accountId).getD sc.target.accountId,
     region.getD sc.target.region, output⟩
  modify fun w => { w with used := i.insertSorted w.used }
  match sc.state.output? i.unit i.accountId i.region i.output with
  | some v => pure (.str v)
  | none =>
    modify fun w => { w with missing := i.insertSorted w.missing }
    pure (.obj [("Fn::CopyValue", rendered)])

/-- The id and attribute a `Fn::GetAtt` argument names, if it names one. -/
def attributePair : Value → Option (String × String)
  | .str s => splitOnce s '.'
  | .arr [.str id, .str name] => some (id, name)
  | _ => none

mutual

/-- Renders a value. -/
def walk (sc : Scope) : Value → Walk Value
  | .arr items => return .arr (← walkItems sc items)
  | .obj [("Ref", arg)] =>
    match arg with
    | .str name =>
      pure ((sc.reference name).elim (.obj [("Ref", arg)]) Value.str)
    | _ => throw (sc.invalid "Ref" "expected a logical id")
  | .obj [("Fn::GetAtt", arg)] =>
    match attributePair arg with
    | some (id, name) =>
      pure ((sc.attributeOf id name).elim (.obj [("Fn::GetAtt", arg)]) Value.str)
    | none => return .obj [("Fn::GetAtt", ← walk sc arg)]
  | .obj [("Fn::Sub", arg)] =>
    match arg with
    | .str text => pure (sc.sub text none)
    | .arr [.str text] => pure (sc.sub text none)
    | .arr [.str text, .obj vars] => do
      let rendered ← walkFields sc vars
      pure (sc.sub text (some (vars.map Prod.fst, rendered)))
    | _ => throw (sc.invalid "Fn::Sub" "expected a string or [string, variables]")
  | .obj [("Fn::CopyValue", arg)] => do sc.copyValue (← walk sc arg)
  | .obj fs => return .obj (← walkFields sc fs)
  | v => pure v

/-- Renders the items of an array. -/
def walkItems (sc : Scope) : List Value → Walk (List Value)
  | [] => pure []
  | v :: vs => do
    let v ← walk sc v
    return v :: (← walkItems sc vs)

/-- Renders the values of an object, keys in order. -/
def walkFields (sc : Scope) : Fields → Walk Fields
  | [] => pure []
  | (k, v) :: rest => do
    let v ← walk sc v
    return (k, v) :: (← walkFields sc rest)

end

/-- Renders a unit's body and parameters. -/
def walkUnit (sc : Scope) : UnitKind → Walk (Value × Fields)
  | .stack template parameters => do
    let body ← sc.walk template
    let params ← sc.walkFields parameters
    pure (body, params)
  | .plugin _ config => do
    let body ← sc.walk config
    pure (body, [])

end Scope

/-- Renders a unit for a target: the artifact, or the first invalid expression, or the imports
whose outputs are missing. -/
def render (o : Organization) (s : State) (u : UnitDef) (t : Target) :
    Except RenderError Artifact := do
  let sc : Scope := ⟨o, s, u.name, t⟩
  let ((body, params), w) ← (sc.walkUnit u.kind).run {}
  if !w.missing.isEmpty then throw (.unresolvedExport u.name t.key w.missing)
  pure { body, parameters := params.map fun (k, v) => (k, coerceParameter v), imports := w.used }

/-- Every import a render of a unit for a target performs, whether its output is recorded or
not; or the first invalid expression. -/
def collectImports (o : Organization) (s : State) (u : UnitDef) (t : Target) :
    Except RenderError (List ImportRef) := do
  let sc : Scope := ⟨o, s, u.name, t⟩
  let (_, w) ← (sc.walkUnit u.kind).run {}
  pure w.used

end OrgDeploy
