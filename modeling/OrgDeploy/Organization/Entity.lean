import OrgDeploy.Json.Decode
import OrgDeploy.Json.Write

/-!
# Organization entities

An entity is an account, an organizational unit or the master account, known by a logical id
and, once bound, by the physical id of the cloud account. `Entity.attr` looks up an
attribute by the name templates use:

* `AccountName` (missing when empty), `AccountId` (the physical id), `RootEmail`, `Alias`;
* `OrganizationAccessRoleName`, `BuildAccessRoleName` (always present);
* `Tags.<key>`; every other name is unknown.

Source: `orgform-organization/src/entity.rs:1-125`.
-/

namespace OrgDeploy

open OrgDeploy.Json

/-- What an entity is. -/
inductive EntityKind where
  | account
  | organizationalUnit
  | masterAccount
  deriving DecidableEq, Repr

/-- The role name an account has when it declares none. -/
def defaultRoleName : String := "OrganizationAccountAccessRole"

/-- An account, organizational unit or the master account. -/
structure Entity where
  logicalId : String
  physicalId : Option String := none
  kind : EntityKind := .account
  accountName : String := ""
  rootEmail : Option String := none
  aliasName : Option String := none
  tags : List (String × String) := []
  organizationAccessRoleName : String := defaultRoleName
  buildAccessRoleName : String := defaultRoleName
  /-- Member accounts, for an organizational unit. -/
  members : List String := []
  deriving DecidableEq, Repr

/-- The outcome of an attribute lookup. -/
inductive Lookup where
  | value (s : String)
  /-- A known attribute without a value for this entity. -/
  | missing
  /-- A name that is no attribute. -/
  | unknown
  deriving DecidableEq, Repr

namespace EntityKind

/-- The JSON names of the kinds. -/
def names : List (String × EntityKind) :=
  [("account", .account), ("organizational_unit", .organizationalUnit),
   ("master_account", .masterAccount)]

/-- The JSON name of a kind. -/
def name : EntityKind → String
  | .account => "account"
  | .organizationalUnit => "organizational_unit"
  | .masterAccount => "master_account"

/-- Decodes a kind by name. -/
def decoder : Decoder EntityKind := Decoder.variant names

end EntityKind

namespace Entity

/-- Whether the entity is an account (the master account included). -/
def isAccount (e : Entity) : Bool := e.kind != .organizationalUnit

/-- Whether every pair of `selector` is among the entity's tags. -/
def matchesTags (e : Entity) (selector : List (String × String)) : Bool :=
  selector.all fun (k, v) => e.tags.lookup k == some v

/-- Looks up an attribute by name. -/
def attr (e : Entity) (name : String) : Lookup :=
  let known : Option (Option String) :=
    if name = "AccountName" then some (if e.accountName.isEmpty then none else some e.accountName)
    else if name = "AccountId" then some e.physicalId
    else if name = "RootEmail" then some e.rootEmail
    else if name = "Alias" then some e.aliasName
    else if name = "OrganizationAccessRoleName" then some (some e.organizationAccessRoleName)
    else if name = "BuildAccessRoleName" then some (some e.buildAccessRoleName)
    else if name.startsWith "Tags." then some (e.tags.lookup (name.drop 5).toString)
    else none
  match known with
  | none => .unknown
  | some (some v) => .value v
  | some none => .missing

/-- The JSON shape of an entity; only the logical id is required. -/
def shape : Shape Entity where
  name := "struct OrganizationEntity"
  init := ⟨"", none, .account, "", none, none, [], defaultRoleName, defaultRoleName, []⟩
  fields := [
    Field.need "logical_id" Decoder.string fun v e => { e with logicalId := v },
    Field.of "physical_id" (Decoder.option Decoder.string) fun v e => { e with physicalId := v },
    Field.of "kind" EntityKind.decoder fun v e => { e with kind := v },
    Field.of "account_name" Decoder.string fun v e => { e with accountName := v },
    Field.of "root_email" (Decoder.option Decoder.string) fun v e => { e with rootEmail := v },
    Field.of "alias" (Decoder.option Decoder.string) fun v e => { e with aliasName := v },
    Field.of "tags" (Decoder.dict Decoder.string) fun v e => { e with tags := v },
    Field.of "organization_access_role_name" Decoder.string
      fun v e => { e with organizationAccessRoleName := v },
    Field.of "build_access_role_name" Decoder.string
      fun v e => { e with buildAccessRoleName := v },
    Field.of "accounts" (Decoder.list Decoder.string) fun v e => { e with members := v }]

/-- Decodes an entity. -/
def decoder : Decoder Entity := Decoder.record shape

/-- An entity as JSON, fields in declaration order; absent or empty optional parts left out. -/
def toJson (e : Entity) : Value :=
  let opt (k : String) : Option String → Fields
    | some v => [(k, .str v)]
    | none => []
  .obj <|
    [("logical_id", .str e.logicalId)] ++ opt "physical_id" e.physicalId ++
    [("kind", .str e.kind.name), ("account_name", .str e.accountName)] ++
    opt "root_email" e.rootEmail ++ opt "alias" e.aliasName ++
    (if e.tags.isEmpty then [] else [("tags", .obj (e.tags.map fun (k, v) => (k, .str v)))]) ++
    [("organization_access_role_name", .str e.organizationAccessRoleName),
     ("build_access_role_name", .str e.buildAccessRoleName)] ++
    (if e.members.isEmpty then [] else [("accounts", Value.strs e.members)])

end Entity

end OrgDeploy
