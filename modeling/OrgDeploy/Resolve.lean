import OrgDeploy.Template.Binding
import OrgDeploy.Organization.Basic
import OrgDeploy.Organization.Target
import OrgDeploy.Text.Unicode

/-!
# Resolving bindings into targets

`Binding.resolve o override b` expands a binding against an organization:

1. Regions: the override if there is one, else the binding's; blank ones dropped, sorted,
   duplicates removed. None left is `missingRegion`, checked before anything else.
2. Accounts, by logical id: every member account for `"*"`; a logical-id selector names an
   entity (else `unresolvableAccount`), which stands for itself or, for an organizational unit,
   for its members; a tag selector takes the master and the accounts whose tags match. The
   master is added when the binding asks for it.
3. Exclusions name entities too (else `unresolvableAccount`) and remove what they stand for.
4. Every selected account with a physical id gives a target per region. Targets are sorted by
   account id and region; when two accounts share a physical id, the one with the smaller
   logical id names the target.

Source: `orgform-resolver/src/resolver.rs:1-152` (`BindingResolver`) and `error.rs:1-13`.
-/

namespace OrgDeploy

open OrgDeploy.Text

/-- Why a binding could not be resolved. -/
inductive ResolveError where
  | unresolvableAccount (logicalId : String)
  | missingRegion
  deriving DecidableEq, Repr

/-- The wording of a resolve error. -/
def ResolveError.message : ResolveError → String
  | .unresolvableAccount id => s!"account '{id}' is not part of the organization"
  | .missingRegion => "binding does not declare any region"

/-- Inserts a string into a sorted list of distinct strings. -/
def insertSortedStr (s : String) : List String → List String
  | [] => [s]
  | t :: rest => if s < t then s :: t :: rest else if s = t then t :: rest else t :: insertSortedStr s rest

namespace Binding

/-- The regions a binding deploys to: non-blank, sorted, distinct. -/
def regionSet (override : Option (List String)) (b : Binding) : List String :=
  let given := override.getD (b.regions.getD [])
  (given.filter fun r => !allBlank r).foldl (fun acc r => insertSortedStr r acc) []

/-- The entity with a logical id. -/
def lookupEntity (o : Organization) (id : String) : Except ResolveError Entity :=
  match o.get? id with
  | some e => .ok e
  | none => .error (.unresolvableAccount id)

/-- The accounts an entity stands for: itself, or the members of an organizational unit. -/
def expand (o : Organization) (e : Entity) : Except ResolveError (List Entity) :=
  match e.kind with
  | .organizationalUnit => e.members.mapM (lookupEntity o)
  | _ => .ok [e]

/-- The accounts one selector picks. -/
def pick (o : Organization) : Selector → Except ResolveError (List Entity)
  | .logicalId id => do expand o (← lookupEntity o id)
  | .tags pairs => .ok ((o.master.toList ++ o.accounts).filter (·.matchesTags pairs))

/-- The accounts a binding selects, by logical id. -/
def selectAccounts (o : Organization) (b : Binding) : Except ResolveError (Table Entity) := do
  let add (t : Table Entity) (es : List Entity) : Table Entity :=
    es.foldl (fun t e => t.insert e.logicalId e) t
  let selected ← match b.accounts with
    | none => pure []
    | some .all => pure (add [] o.accounts)
    | some (.list sels) => sels.foldlM (fun t sel => do pure (add t (← pick o sel))) []
  pure (if b.includeMaster then add selected o.master.toList else selected)

/-- Adds a target unless one for the same account id and region is there already. -/
def addTarget (t : Target) : List Target → List Target
  | [] => [t]
  | u :: rest =>
    match (Ord.compare t.accountId u.accountId).then (Ord.compare t.region u.region) with
    | .lt => t :: u :: rest
    | .eq => u :: rest
    | .gt => u :: addTarget t rest

/-- Expands a binding into its targets. -/
def resolve (o : Organization) (override : Option (List String)) (b : Binding) :
    Except ResolveError (List Target) := do
  let regions := regionSet override b
  if regions.isEmpty then throw .missingRegion
  let selected ← selectAccounts o b
  let selected ← b.excludeAccounts.foldlM (fun t id => do
    let gone ← expand o (← lookupEntity o id)
    pure (gone.foldl (fun t e => t.erase e.logicalId) t)) selected
  pure <| selected.foldl (fun ts (_, e) =>
    match e.physicalId with
    | some pid => regions.foldl (fun ts r => addTarget ⟨pid, r, e.logicalId⟩ ts) ts
    | none => ts) []

end Binding

end OrgDeploy
