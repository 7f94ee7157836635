import OrgDeploy.Organization.Entity
import OrgDeploy.Fs.Tree

/-!
# Organizations

An organization is an optional master account, the member accounts and the organizational units.
`Organization.build` fixes each entity's kind by its position and checks the references:
logical ids are distinct over master, accounts and units (the first repeated one, in that order,
is the error), and every member an organizational unit lists is the master or an account (the
first unit with an unknown member, at its first unknown member, is the error).

The pseudo ids `CurrentAccount` and `AWSAccount` stand for the account of the target being
rendered.

## Directories

A directory tells the master account, the accounts and the organizational units; loading it
builds the organization with `Organization.build`'s checks. `Directory σ` reads a world of type
`σ`.

* `FileDirectory.load` reads an organization file (`io` with the path and the system's message
  when it cannot be read, `parse` with the reader's message when it is no organization file).
* `Organization.asDirectory` serves an organization already built: loading builds it again from
  its parts.

Source: `orgform-organization/src/organization.rs:1-134`, `error.rs:1-26` and
`directory.rs:1-108`.
-/

namespace OrgDeploy

open OrgDeploy.Json OrgDeploy.Fs

/-- The accounts and organizational units a template is deployed into. -/
structure Organization where
  master : Option Entity := none
  accounts : List Entity := []
  units : List Entity := []
  deriving DecidableEq, Repr

/-- Why an organization could not be loaded. -/
inductive OrganizationError where
  /-- The organization file could not be read. -/
  | io (path msg : String)
  /-- The organization file is no JSON of an organization; the reader's message. -/
  | parse (msg : String)
  | duplicateLogicalId (logicalId : String)
  | unknownMember (unit account : String)
  deriving DecidableEq, Repr

/-- The wording of an organization error. -/
def OrganizationError.message : OrganizationError → String
  | .io path msg => s!"failed to read organization file {path}: {msg}"
  | .parse msg => s!"invalid organization file: {msg}"
  | .duplicateLogicalId id => s!"duplicate logical id in organization: {id}"
  | .unknownMember unit account =>
    s!"organizational unit '{unit}' references unknown account '{account}'"

/-- The pseudo ids of the current account. -/
def currentAccountIds : List String := ["CurrentAccount", "AWSAccount"]

/-- Whether an id denotes the current account. -/
def isCurrentAccountId (id : String) : Bool := currentAccountIds.contains id

namespace Organization

/-- The first logical id that repeats one before it. -/
def firstRepeat : List String → List String → Option String
  | [], _ => none
  | x :: rest, seen => if seen.contains x then some x else firstRepeat rest (x :: seen)

/-- Builds an organization, fixing kinds by position and checking references. -/
def build (master : Option Entity) (accounts units : List Entity) :
    Except OrganizationError Organization :=
  let master := master.map fun m => { m with kind := .masterAccount }
  let accounts := accounts.map fun a => { a with kind := .account }
  let units := units.map fun u => { u with kind := .organizationalUnit }
  let all := master.toList ++ accounts ++ units
  match firstRepeat (all.map (·.logicalId)) [] with
  | some id => .error (.duplicateLogicalId id)
  | none =>
    let accountIds := (master.toList ++ accounts).map (·.logicalId)
    let unknown := units.findSome? fun u =>
      (u.members.find? fun a => !accountIds.contains a).map fun a => (u.logicalId, a)
    match unknown with
    | some (u, a) => .error (.unknownMember u a)
    | none => .ok ⟨master, accounts, units⟩

/-- Every entity: master, accounts, then organizational units. -/
def entities (o : Organization) : List Entity := o.master.toList ++ o.accounts ++ o.units

/-- The entity with a logical id. -/
def get? (o : Organization) (id : String) : Option Entity := o.entities.find? (·.logicalId == id)

/-- The first account (master first) with a physical id. -/
def findAccountByPhysicalId? (o : Organization) (pid : String) : Option Entity :=
  (o.master.toList ++ o.accounts).find? (·.physicalId == some pid)

/-- Gives every entity without a physical id the one `lookup` knows for its logical id. -/
def bindPhysicalIds (o : Organization) (lookup : String → Option String) : Organization :=
  let fill (e : Entity) : Entity :=
    match e.physicalId with
    | some _ => e
    | none => { e with physicalId := lookup e.logicalId }
  ⟨o.master.map fill, o.accounts.map fill, o.units.map fill⟩

end Organization

/-- The JSON layout of an organization file. -/
structure OrganizationFile where
  master : Option Entity := none
  accounts : List Entity := []
  units : List Entity := []

namespace OrganizationFile

/-- The JSON shape of an organization file. -/
def shape : Shape OrganizationFile where
  name := "struct OrganizationFile"
  init := {}
  fields := [
    Field.of "master_account" (Decoder.option Entity.decoder) fun v f => { f with master := v },
    Field.of "accounts" (Decoder.list Entity.decoder) fun v f => { f with accounts := v },
    Field.of "organizational_units" (Decoder.list Entity.decoder) fun v f => { f with units := v }]

/-- Decodes an organization file. -/
def decoder : Decoder OrganizationFile := Decoder.record shape

/-- The organization a file describes. -/
def organization (f : OrganizationFile) : Except OrganizationError Organization :=
  Organization.build f.master f.accounts f.units

end OrganizationFile

/-- Where the organization comes from, over a world of type `σ`. -/
abbrev Directory (σ : Type) := σ → Except OrganizationError Organization

namespace FileDirectory

/-- Loads the organization file at `path`. -/
def load (path : String) (t : FileTree) : Except OrganizationError Organization := do
  let text ← (t.fileText path).mapError fun e => .io path e.message
  let file ← (decodeText text OrganizationFile.decoder).mapError .parse
  file.organization

/-- The directory reading the file `path` of a world's working directory. -/
def directory (path : String) (fi : FilesIn σ) : Directory σ := fun w => load path (fi.get w)

end FileDirectory

/-- An organization serving as its own directory. -/
def Organization.asDirectory (o : Organization) : Directory σ := fun _ =>
  Organization.build o.master o.accounts o.units

end OrgDeploy
