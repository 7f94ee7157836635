import OrgDeploy.Json.Number

/-!
# JSON values

`Value` is a JSON document in memory. An object is a list of fields; as a *value* its keys are
sorted (by code point, which is the byte order of their UTF-8 text) and distinct, the way a
document model keyed by an ordered map holds them. A list of fields read straight from text keeps
the text's order and repeated keys until `Value.normalize` sorts it, the last of equal keys
winning.

Main operations: `Value.get?` (a field), `Fields.insert` (sorted insert that replaces),
`Value.object` (an object from fields in any order), `Value.normalize`.

Source: `serde_json::Value` as templates, configurations and state hold it.
-/

namespace OrgDeploy.Json

/-- A JSON value. -/
inductive Value where
  | null
  | bool (b : Bool)
  | num (n : Number)
  | str (s : String)
  | arr (items : List Value)
  | obj (fields : List (String × Value))

instance : Inhabited Value := ⟨.null⟩

/-- The fields of an object. -/
abbrev Fields := List (String × Value)

/-- Inserts a field into sorted fields, replacing a field of the same key. -/
def Fields.insert (k : String) (v : Value) : Fields → Fields
  | [] => [(k, v)]
  | (k', v') :: rest =>
    if k < k' then (k, v) :: (k', v') :: rest
    else if k = k' then (k, v) :: rest
    else (k', v') :: Fields.insert k v rest

/-- Sorted, distinct fields from fields in any order; of equal keys the last one stays. -/
def Fields.sorted (fs : Fields) : Fields :=
  fs.foldl (fun acc (k, v) => Fields.insert k v acc) []

/-- An object from fields in any order (the last of equal keys wins). -/
def Value.object (fs : Fields) : Value := .obj (Fields.sorted fs)

/-- The field `k` of an object, if the value is an object that has one. -/
def Value.get? : Value → String → Option Value
  | .obj fs, k => fs.lookup k
  | _, _ => none

/-- A string value's text. -/
def Value.getStr? : Value → Option String
  | .str s => some s
  | _ => none

mutual
/-- Sorts every object of a value read from text, recursively; the last of equal keys wins. -/
def Value.normalize : Value → Value
  | .arr items => .arr (normalizeItems items)
  | .obj fs => .obj (Fields.sorted (normalizeFields fs))
  | v => v

/-- `Value.normalize` on every item. -/
def normalizeItems : List Value → List Value
  | [] => []
  | v :: rest => v.normalize :: normalizeItems rest

/-- `Value.normalize` on every field's value. -/
def normalizeFields : Fields → Fields
  | [] => []
  | (k, v) :: rest => (k, v.normalize) :: normalizeFields rest
end

/-- A string list as a JSON array. -/
def Value.strs (xs : List String) : Value := .arr (xs.map .str)

/-- A natural number as a JSON number. -/
def Value.nat (n : Nat) : Value := .num (.nat n)

/-- A string, or null. -/
def Value.optStr : Option String → Value
  | some s => .str s
  | none => .null

end OrgDeploy.Json
