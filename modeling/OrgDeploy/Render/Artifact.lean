import OrgDeploy.Json.Write
import OrgDeploy.Digest.Sha256

/-!
# Rendered artifacts

An artifact is a unit rendered for one target: the rendered body (a stack's template or a
plugin's configuration), the stack parameters as strings, and the imports the render used.

* `Artifact.text` is the pretty JSON of the body, the text a backend receives.
* `Artifact.digest` is `sha256:` and the hex SHA-256 of the compact JSON of
  `{"body": …, "parameters": …}`: it changes exactly when body or parameters change.

Source: `orgform-render/src/artifact.rs:1-65`.
-/

namespace OrgDeploy

open OrgDeploy.Json OrgDeploy.Digest

/-- An output of another unit's deployment, used by a render: output `output` of `unit` at
`accountId`/`region`. -/
structure ImportRef where
  unit : String
  accountId : String
  region : String
  output : String
  deriving DecidableEq, Repr, Inhabited

namespace ImportRef

/-- Imports in order of unit, account id, region, then output. -/
def compare (a b : ImportRef) : Ordering :=
  (Ord.compare a.unit b.unit).then ((Ord.compare a.accountId b.accountId).then
    ((Ord.compare a.region b.region).then (Ord.compare a.output b.output)))

instance : Ord ImportRef := ⟨ImportRef.compare⟩

/-- How an import is named in messages: `unit.output (account/region)`. -/
def display (i : ImportRef) : String := s!"{i.unit}.{i.output} ({i.accountId}/{i.region})"

/-- An import as JSON. -/
def toJson (i : ImportRef) : Value :=
  .obj [("unit", .str i.unit), ("account_id", .str i.accountId), ("region", .str i.region),
        ("output", .str i.output)]

/-- Inserts into a sorted list of distinct imports. -/
def insertSorted (i : ImportRef) : List ImportRef → List ImportRef
  | [] => [i]
  | j :: rest =>
    match ImportRef.compare i j with
    | .lt => i :: j :: rest
    | .eq => j :: rest
    | .gt => j :: insertSorted i rest

end ImportRef

/-- A unit rendered for one target. -/
structure Artifact where
  body : Value
  parameters : List (String × String) := []
  imports : List ImportRef := []

namespace Artifact

/-- The text a backend receives: the pretty JSON of the body. -/
def text (a : Artifact) : String := a.body.pretty

/-- The parameters as a JSON object. -/
def parametersJson (a : Artifact) : Value := .obj (a.parameters.map fun (k, v) => (k, .str v))

/-- The content digest over body and parameters. -/
def digest (a : Artifact) : String :=
  let canonical := Value.obj [("body", a.body.normalize), ("parameters", a.parametersJson)]
  "sha256:" ++ sha256Hex (utf8 canonical.compact)

end Artifact

end OrgDeploy
