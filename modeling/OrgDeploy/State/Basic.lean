import OrgDeploy.Template.Basic
import OrgDeploy.Organization.Basic
import OrgDeploy.Organization.Target
import OrgDeploy.Time

/-!
# Persisted deployment state

The state remembers, between runs:

* `bindings`: the physical id learned for each logical id, with the entity's kind. A binding is
  never replaced: `setBinding` accepts the same physical id again and refuses a different one.
* `deployments`: for each unit, one `Record` per target key `account_id/region`: the hash last
  deployed there, the target, the outputs the deployment exposed, and when it was deployed.
* `definitions`: the definition each unit with records was last applied with. Removing a unit's
  last record removes the unit and its definition.
* the text of the last template deployed in full, and when the state was last committed.

`State.bindOrganization` exchanges identities with an organization: entities without a physical
id take the bound one, then every entity with a physical id is bound, and the master's physical
id is remembered.

Source: `orgform-state/src/types.rs:1-189` (`PersistedState`, `DeploymentRecord`).
-/

namespace OrgDeploy

open OrgDeploy.Json

/-- What was last deployed for one unit at one target. -/
structure Record where
  lastCommittedHash : String
  accountId : String
  region : String
  accountLogicalId : String
  outputs : List (String × String) := []
  deployedAt : Timestamp
  deriving DecidableEq, Repr

/-- The physical identity of an entity. -/
structure IdentityBinding where
  kind : EntityKind
  physicalId : String
  deriving DecidableEq, Repr

/-- The durable record of prior deployments. -/
structure State where
  masterAccountId : Option String := none
  bindings : Table IdentityBinding := []
  deployments : Table (Table Record) := []
  definitions : Table UnitDef := []
  previousTemplate : Option String := none
  committedAt : Option Timestamp := none

instance : Inhabited State := ⟨{}⟩

namespace Record

/-- The target of a record. -/
def target (r : Record) : Target := ⟨r.accountId, r.region, r.accountLogicalId⟩

/-- The key of a record: `account_id/region`. -/
def key (r : Record) : String := targetKey r.accountId r.region

end Record

namespace State

/-- The physical id bound to a logical id. -/
def physicalId? (s : State) (id : String) : Option String := (s.bindings.get? id).map (·.physicalId)

/-- Binds a logical id unless it is bound already: the same physical id is accepted, another
one refused (`false`, state unchanged). -/
def setBinding (s : State) (id : String) (kind : EntityKind) (pid : String) : Bool × State :=
  match s.bindings.get? id with
  | some b => (b.physicalId == pid, s)
  | none => (true, { s with bindings := s.bindings.insert id ⟨kind, pid⟩ })

/-- Exchanges identities with an organization. -/
def bindOrganization (s : State) (o : Organization) : State × Organization :=
  let o := o.bindPhysicalIds s.physicalId?
  let s := o.entities.foldl (fun s e =>
    match e.physicalId with
    | some pid => (s.setBinding e.logicalId e.kind pid).2
    | none => s) s
  let s := match o.master.bind (·.physicalId) with
    | some pid => { s with masterAccountId := some pid }
    | none => s
  (s, o)

/-- The record of a unit at an account and region. -/
def record? (s : State) (unit accountId region : String) : Option Record :=
  (s.deployments.get? unit).bind (·.get? (targetKey accountId region))

/-- The records of a unit with their keys, in key order. -/
def recordTable (s : State) (unit : String) : Table Record := (s.deployments.get? unit).getD []

/-- The records of a unit in key order. -/
def records (s : State) (unit : String) : List Record := (s.recordTable unit).values

/-- The units with records, in order. -/
def unitNames (s : State) : List String := s.deployments.keys

/-- Stores a record under its key, replacing what was there. -/
def setRecord (s : State) (unit : String) (r : Record) : State :=
  { s with deployments := s.deployments.insert unit ((s.recordTable unit).insert r.key r) }

/-- Removes the record of a unit at an account and region; a unit left without records loses
its definition too. -/
def removeRecord (s : State) (unit accountId region : String) : Option Record × State :=
  match s.deployments.get? unit with
  | none => (none, s)
  | some targets =>
    let k := targetKey accountId region
    let removed := targets.get? k
    let rest := targets.erase k
    if rest.isEmpty then
      (removed, { s with deployments := s.deployments.erase unit,
                         definitions := s.definitions.erase unit })
    else (removed, { s with deployments := s.deployments.insert unit rest })

/-- The definition a unit was last applied with. -/
def definition? (s : State) (unit : String) : Option UnitDef := s.definitions.get? unit

/-- Remembers a unit's definition under its name. -/
def setDefinition (s : State) (u : UnitDef) : State :=
  { s with definitions := s.definitions.insert u.name u }

/-- An output of a unit's deployment at an account and region. -/
def output? (s : State) (unit accountId region name : String) : Option String :=
  (s.record? unit accountId region).bind (·.outputs.lookup name)

end State

/-! ## JSON form -/

/-- Decodes a timestamp from its RFC 3339 text. -/
def Timestamp.decoder : Decoder Timestamp := fun ctx n =>
  match n with
  | .str .. =>
    Decoder.stringWith (fun s => (Timestamp.parse s).mapError TimeError.message) ctx n
  | _ => .error (invalidType ctx n "an RFC 3339 formatted date and time string")

/-- A string table as JSON. -/
def strTableJson (t : List (String × String)) : Value := .obj (t.map fun (k, v) => (k, .str v))

namespace Record

/-- The JSON shape of a record. -/
def shape : Shape Record where
  name := "struct DeploymentRecord"
  init := ⟨"", "", "", "", [], Timestamp.epoch⟩
  fields := [
    Field.need "last_committed_hash" Decoder.string fun v r => { r with lastCommittedHash := v },
    Field.need "account_id" Decoder.string fun v r => { r with accountId := v },
    Field.need "region" Decoder.string fun v r => { r with region := v },
    Field.need "account_logical_id" Decoder.string fun v r => { r with accountLogicalId := v },
    Field.of "outputs" (Decoder.dict Decoder.string) fun v r => { r with outputs := v },
    Field.need "deployed_at" Timestamp.decoder fun v r => { r with deployedAt := v }]

/-- Decodes a record. -/
def decoder : Decoder Record := Decoder.record shape

/-- A record as JSON, fields in declaration order. -/
def toJson (r : Record) : Value :=
  .obj <|
    [("last_committed_hash", .str r.lastCommittedHash), ("account_id", .str r.accountId),
     ("region", .str r.region), ("account_logical_id", .str r.accountLogicalId)] ++
    (if r.outputs.isEmpty then [] else [("outputs", strTableJson r.outputs)]) ++
    [("deployed_at", .str r.deployedAt.text)]

end Record

namespace IdentityBinding

/-- The JSON shape of a binding. -/
def shape : Shape IdentityBinding where
  name := "struct IdentifierBinding"
  init := ⟨.account, ""⟩
  fields := [
    Field.need "kind" EntityKind.decoder fun v b => { b with kind := v },
    Field.need "physical_id" Decoder.string fun v b => { b with physicalId := v }]

/-- Decodes a binding. -/
def decoder : Decoder IdentityBinding := Decoder.record shape

/-- A binding as JSON. -/
def toJson (b : IdentityBinding) : Value :=
  .obj [("kind", .str b.kind.name), ("physical_id", .str b.physicalId)]

end IdentityBinding

namespace State

/-- The JSON shape of a state; every field may be left out. -/
def shape : Shape State where
  name := "struct PersistedState"
  init := {}
  fields := [
    Field.of "master_account_id" (Decoder.option Decoder.string)
      fun v s => { s with masterAccountId := v },
    Field.of "bindings" (Decoder.dict IdentityBinding.decoder) fun v s => { s with bindings := v },
    Field.of "deployments" (Decoder.dict (Decoder.dict Record.decoder))
      fun v s => { s with deployments := v },
    Field.of "definitions" (Decoder.dict UnitDef.decoder) fun v s => { s with definitions := v },
    Field.of "previous_template" (Decoder.option Decoder.string)
      fun v s => { s with previousTemplate := v },
    Field.of "committed_at" (Decoder.option Timestamp.decoder)
      fun v s => { s with committedAt := v }]

/-- Decodes a state. -/
def decoder : Decoder State := Decoder.record shape

/-- A state as JSON, fields in declaration order; empty optional parts left out. -/
def toJson (s : State) : Value :=
  .obj <|
    (match s.masterAccountId with
      | some m => [("master_account_id", .str m)]
      | none => []) ++
    [("bindings", .obj (s.bindings.map fun (k, b) => (k, b.toJson))),
     ("deployments", .obj (s.deployments.map fun (u, t) =>
        (u, .obj (t.map fun (k, r) => (k, r.toJson)))))] ++
    (if s.definitions.isEmpty then []
     else [("definitions", .obj (s.definitions.map fun (k, u) => (k, u.toJson)))]) ++
    (match s.previousTemplate with
      | some t => [("previous_template", .str t)]
      | none => []) ++
    (match s.committedAt with
      | some t => [("committed_at", .str t.text)]
      | none => [])

/-- The template the state was last deployed with in full, if it still reads as one. -/
def previousTemplateDef? (s : State) : Option Template :=
  s.previousTemplate.bind fun t => (Template.parse t).toOption

end State

end OrgDeploy
