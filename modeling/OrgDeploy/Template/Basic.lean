import OrgDeploy.Template.Unit
import OrgDeploy.Text.Unicode

/-!
# Templates

A template is the ordered list of units to deploy. `Template.parse` reads one from JSON text and
checks it: every unit name has a non-blank character, no two units share a name, and every
plugin unit names its plugin. The first unit that breaks a rule, in order, decides the error, and
within one unit the rules are checked in that order.

Source: `orgform-config/src/template.rs:1-54` and `error.rs:1-21`.
-/

namespace OrgDeploy

open OrgDeploy.Json OrgDeploy.Text

/-- A deployment template. -/
structure Template where
  units : List UnitDef := []

instance : Inhabited Template := ⟨{}⟩

/-- Why a template text was refused. -/
inductive ConfigError where
  /-- The text is no JSON of a template; the reader's message. -/
  | parse (msg : String)
  | emptyUnitName (index : Nat)
  | duplicateUnit (name : String)
  | missingPlugin (name : String)
  deriving DecidableEq, Repr

/-- The wording of a refusal. -/
def ConfigError.message : ConfigError → String
  | .parse msg => s!"invalid template: {msg}"
  | .emptyUnitName i => s!"unit at position {i} has an empty name"
  | .duplicateUnit name => s!"duplicate unit name: {name}"
  | .missingPlugin name => s!"plugin unit '{name}' does not name a plugin"

namespace Template

/-- The JSON shape of a template. -/
def shape : Shape Template where
  name := "struct TemplateDef"
  init := {}
  fields := [Field.of "units" (Decoder.list UnitDef.decoder) fun v _ => ⟨v⟩]

/-- Decodes a template. -/
def decoder : Decoder Template := Decoder.record shape

/-- The first rule a unit breaks, given the names of the units before it. -/
def unitProblem (seen : List String) (index : Nat) (u : UnitDef) : Option ConfigError :=
  if allBlank u.name then some (.emptyUnitName index)
  else if seen.contains u.name then some (.duplicateUnit u.name)
  else match u.kind with
    | .plugin p _ => if allBlank p then some (.missingPlugin u.name) else none
    | .stack .. => none

/-- The first rule broken by the units, in order. -/
def check (us : List UnitDef) : Except ConfigError Unit :=
  go us [] 0
where
  go : List UnitDef → List String → Nat → Except ConfigError Unit
    | [], _, _ => .ok ()
    | u :: rest, seen, i =>
      match unitProblem seen i u with
      | some e => .error e
      | none => go rest (u.name :: seen) (i + 1)

/-- Reads and checks a template. -/
def parse (text : String) : Except ConfigError Template := do
  let t ← (decodeText text decoder).mapError ConfigError.parse
  check t.units
  pure t

/-- The unit called `name`. -/
def unit? (t : Template) (name : String) : Option UnitDef := t.units.find? (·.name == name)

/-- The unit names in order. -/
def unitNames (t : Template) : List String := t.units.map (·.name)

/-- A template as JSON. -/
def toJson (t : Template) : Value := .obj [("units", .arr (t.units.map UnitDef.toJson))]

end Template

end OrgDeploy
