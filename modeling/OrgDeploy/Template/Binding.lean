import OrgDeploy.Json.Decode
import OrgDeploy.Json.Write

/-!
# Organization bindings

A binding says where a unit is deployed: which accounts (all member accounts, or a list of
selectors, each a logical id or a set of tags that must all match), which accounts to leave out,
which regions, and whether the master account is added.

In JSON the accounts are `"*"`, any other single string (one logical id), or a list of selectors,
each a string or an object of tags; regions are a string or a list of strings. Written back, a
single id becomes a one-element list and regions are always a list.

Source: `orgform-config/src/binding.rs:1-102`.
-/

namespace OrgDeploy

open OrgDeploy.Json

/-- One account selector. -/
inductive Selector where
  /-- An account, the master account or an organizational unit, by logical id. -/
  | logicalId (id : String)
  /-- Every account whose tags include all these pairs. -/
  | tags (pairs : List (String × String))
  deriving DecidableEq, Repr

/-- The accounts part of a binding. -/
inductive Accounts where
  /-- Every member account of the organization (not the master account). -/
  | all
  | list (selectors : List Selector)
  deriving DecidableEq, Repr

/-- Where a unit is deployed. -/
structure Binding where
  accounts : Option Accounts := none
  excludeAccounts : List String := []
  regions : Option (List String) := none
  includeMaster : Bool := false
  deriving DecidableEq, Repr

namespace Selector

/-- A selector: a logical id or an object of tags. -/
def decoder : Decoder Selector :=
  Decoder.firstOf "AccountSelector"
    [fun ctx n => (Decoder.string ctx n).map .logicalId,
     fun ctx n => (Decoder.dict Decoder.string ctx n).map .tags]

/-- A selector as JSON. -/
def toJson : Selector → Value
  | .logicalId id => .str id
  | .tags pairs => .obj (pairs.map fun (k, v) => (k, .str v))

end Selector

namespace Accounts

/-- `"*"` is every account, another string one logical id, a list its selectors. -/
def ofText (text : String) : Accounts :=
  if text = "*" then .all else .list [.logicalId text]

/-- The accounts of a binding. -/
def decoder : Decoder Accounts :=
  Decoder.firstOf "RawSelection"
    [fun ctx n => (Decoder.string ctx n).map ofText,
     fun ctx n => (Decoder.list Selector.decoder ctx n).map .list]

/-- Accounts as JSON. -/
def toJson : Accounts → Value
  | .all => .str "*"
  | .list sels => .arr (sels.map Selector.toJson)

end Accounts

/-- Regions: one string or a list. -/
def regionsDecoder : Decoder (List String) :=
  Decoder.firstOf "RawRegions"
    [fun ctx n => (Decoder.string ctx n).map ([·]),
     Decoder.list Decoder.string]

namespace Binding

/-- The JSON shape of a binding; every field may be left out. -/
def shape : Shape Binding where
  name := "struct OrganizationBinding"
  init := {}
  fields := [
    Field.of "accounts" (Decoder.option Accounts.decoder) fun v b => { b with accounts := v },
    Field.of "exclude_accounts" (Decoder.list Decoder.string)
      fun v b => { b with excludeAccounts := v },
    Field.of "regions" (Decoder.option regionsDecoder) fun v b => { b with regions := v },
    Field.of "include_master_account" Decoder.bool fun v b => { b with includeMaster := v }]

/-- Decodes a binding. -/
def decoder : Decoder Binding := Decoder.record shape

/-- A binding as JSON, fields in declaration order; empty optional parts are left out. -/
def toJson (b : Binding) : Value :=
  .obj <|
    (match b.accounts with
      | some a => [("accounts", a.toJson)]
      | none => []) ++
    (if b.excludeAccounts.isEmpty then [] else [("exclude_accounts", Value.strs b.excludeAccounts)]) ++
    (match b.regions with
      | some rs => [("regions", Value.strs rs)]
      | none => []) ++
    [("include_master_account", .bool b.includeMaster)]

end Binding

end OrgDeploy
