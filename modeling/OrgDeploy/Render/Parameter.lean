import OrgDeploy.Json.Write

/-!
# Parameter values

Stack parameters reach a backend as strings. `coerceParameter` turns a rendered JSON value into
one:

* `null` is the empty string, a string is itself, numbers and booleans are their JSON text;
* an array is its items' strings joined by `,`;
* an object with a foldable `Fn::Join` entry is that join (`foldJoin`), any other object its
  compact JSON.

`foldJoin` folds `{"Fn::Join": [delimiter, parts]}` whose parts are strings, numbers, booleans
or foldable objects; anything else in it leaves the object unfolded.

Source: `orgform-render/src/coerce.rs:1-55`.
-/

namespace OrgDeploy

open OrgDeploy.Json

/-- The string of a scalar join part. -/
def scalarPart : Value → Option String
  | .str s => some s
  | .num n => some n.text
  | .bool b => some (toString b)
  | _ => none

mutual

/-- Folds an object's `Fn::Join` entry into the joined string. -/
def foldJoin : Value → Option String
  | .obj fs => joinEntry fs
  | _ => none

/-- Folds the first `Fn::Join` entry of an object's fields. -/
def joinEntry : List (String × Value) → Option String
  | [] => none
  | (k, v) :: rest => if k = "Fn::Join" then joinArgs v else joinEntry rest

/-- Folds the arguments of a join: a delimiter and the parts. -/
def joinArgs : Value → Option String
  | .arr [.str delimiter, .arr parts] => (foldParts parts).map (delimiter.intercalate ·)
  | _ => none

/-- The strings of join parts, if every part has one. -/
def foldParts : List Value → Option (List String)
  | [] => some []
  | p :: ps =>
    let head := match p with
      | .obj fs => foldJoin (.obj fs)
      | other => scalarPart other
    match head, foldParts ps with
    | some s, some rest => some (s :: rest)
    | _, _ => none

end

/-- The string a rendered value is passed as. -/
def coerceParameter : Value → String
  | .null => ""
  | .str s => s
  | .num n => n.text
  | .bool b => toString b
  | .arr items => ",".intercalate (coerceItems items)
  | .obj fs => (foldJoin (.obj fs)).getD (Value.obj fs).compact
where
  coerceItems : List Value → List String
    | [] => []
    | v :: vs => coerceParameter v :: coerceItems vs

end OrgDeploy
