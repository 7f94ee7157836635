import OrgDeploy.Template.Binding

/-!
# Units

A unit is one named deployable of a template: a binding, and either a *stack* (a template body
with parameters, deployed to every target) or a *plugin* task (a plugin name and its
configuration).

In JSON a unit is one object: `name`, `organization_binding`, and a `type` of `"stack"` or
`"plugin"` whose own fields (`template`, `parameters`; `plugin`, `config`) stand beside them.
Decoding reads `name` and `organization_binding` first, keeps every other entry aside in text
order, and only after the object is closed reads the kind from the kept entries, so a problem
with the kind is reported at the unit's closing brace.

Source: `orgform-config/src/unit.rs:1-43`.
-/

namespace OrgDeploy

open OrgDeploy.Json

/-- What a unit deploys. -/
inductive UnitKind where
  /-- A template body rendered per target; parameter values are turned into strings. -/
  | stack (template : Value) (parameters : Fields)
  /-- A task run by a registered plugin. -/
  | plugin (name : String) (config : Value)

/-- One deployable declaration of a template. -/
structure UnitDef where
  name : String
  binding : Binding
  kind : UnitKind

instance : Inhabited UnitDef := ⟨⟨"", {}, .plugin "" .null⟩⟩

namespace UnitKind

/-- The two kinds, as their `type` tags name them. -/
inductive Tag where
  | stack
  | plugin
  deriving DecidableEq

/-- The kind a `type` value names: its name, or its position among the kinds. -/
def tagOf (v : Value) : Except Problem Tag :=
  match v with
  | .str s =>
    if s = "stack" then .ok .stack
    else if s = "plugin" then .ok .plugin
    else .error (.custom (Decoder.unknownVariant s ["stack", "plugin"]))
  | .num (.nat 0) => .ok .stack
  | .num (.nat 1) => .ok .plugin
  | .num (.nat k) => .error (.custom s!"invalid value: integer `{k}`, expected variant index 0 <= i < 2")
  | other => .error (invalidType Ctx.buffered (Node.ofValue other) "variant identifier")

/-- The fields of a stack. -/
def stackShape : Shape (Value × Fields) where
  name := "struct variant UnitKind::Stack"
  init := (.null, [])
  fields := [
    Field.need "template" Decoder.json fun v s => (v, s.2),
    Field.of "parameters" (Decoder.dict Decoder.json) fun v s => (s.1, v)]

/-- The fields of a plugin task. -/
def pluginShape : Shape (String × Value) where
  name := "struct variant UnitKind::Plugin"
  init := ("", .null)
  fields := [
    Field.of "plugin" Decoder.string fun v s => (v, s.2),
    Field.of "config" Decoder.json fun v s => (s.1, v)]

/-- Splits kept entries into the `type` value (read as soon as it is met) and the others. -/
def splitTag : Fields → Option Tag → Fields → Except Problem (Option Tag × Fields)
  | [], tag, acc => .ok (tag, acc.reverse)
  | (k, v) :: rest, tag, acc =>
    if k = "type" then
      if tag.isSome then .error (.custom "duplicate field `type`")
      else do
        let t ← tagOf v
        splitTag rest (some t) acc
    else splitTag rest tag ((k, v) :: acc)

/-- The kind from the entries a unit object kept aside. -/
def ofFields (kept : Fields) : Except Problem UnitKind := do
  let (tag, others) ← splitTag kept none []
  match tag with
  | none => .error (.custom "missing field `type`")
  | some .stack =>
    let (t, ps) ← Decoder.record stackShape Ctx.buffered (Node.ofValue (.obj others))
    pure (.stack t ps)
  | some .plugin =>
    let (p, c) ← Decoder.record pluginShape Ctx.buffered (Node.ofValue (.obj others))
    pure (.plugin p c)

/-- The kind's entries of a unit object: `type` first, then the kind's own fields. -/
def fields : UnitKind → Fields
  | .stack t ps =>
    [("type", .str "stack"), ("template", t)] ++ (if ps.isEmpty then [] else [("parameters", .obj ps)])
  | .plugin p c => [("type", .str "plugin"), ("plugin", .str p), ("config", c)]

end UnitKind

namespace UnitDef

/-- The JSON shape of a unit: two named fields and the kind's entries beside them. -/
def shape : Shape UnitDef where
  name := "struct UnitDef"
  init := default
  fields := [
    Field.need "name" Decoder.string fun v u => { u with name := v },
    Field.need "organization_binding" Binding.decoder fun v u => { u with binding := v }]
  rest := some fun _ kept => (UnitKind.ofFields kept).map fun k u => { u with kind := k }

/-- Decodes a unit. -/
def decoder : Decoder UnitDef := Decoder.record shape

/-- A unit as JSON: `name`, `organization_binding`, then the kind's entries. -/
def toJson (u : UnitDef) : Value :=
  .obj ([("name", .str u.name), ("organization_binding", u.binding.toJson)] ++ u.kind.fields)

/-- The plugin of a plugin unit. -/
def plugin? (u : UnitDef) : Option String :=
  match u.kind with
  | .plugin p _ => some p
  | .stack .. => none

end UnitDef

end OrgDeploy
