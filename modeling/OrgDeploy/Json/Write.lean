import OrgDeploy.Json.Value

/-!
# Writing JSON text

Two layouts of one value, with the same string quoting:

* `Value.compact`: no whitespace at all.
* `Value.pretty`: two spaces of indentation per level, a line per item, `": "` after a key, and
  `[]` / `{}` for empty containers; no newline at the end.

Quoting (`quote`) escapes only the quotation mark, the backslash and the control characters below
U+0020: `\b \t \n \f \r` by name, the others as `\u00xx` in lowercase hex. Every other character,
non-ASCII included, is written as itself.

Source: the serde_json writers behind the state file (`orgform-state/src/fs.rs:51-71`), stack
files (`orgform-engine/src/backend.rs:104-113`) and artifact digests
(`orgform-render/src/artifact.rs:54-65`).
-/

namespace OrgDeploy.Json

/-- A lowercase hex digit. -/
def hexDigit (n : Nat) : Char :=
  if n < 10 then Char.ofNat (48 + n) else Char.ofNat (87 + n)

/-- The escape of one character inside a quoted string, as characters. -/
def escapeChar (c : Char) : List Char :=
  if c = '"' then ['\\', '"']
  else if c = '\\' then ['\\', '\\']
  else if c = '\n' then ['\\', 'n']
  else if c = '\t' then ['\\', 't']
  else if c = '\r' then ['\\', 'r']
  else if c.toNat = 8 then ['\\', 'b']
  else if c.toNat = 12 then ['\\', 'f']
  else if c.toNat < 32 then ['\\', 'u', '0', '0', hexDigit (c.toNat / 16), hexDigit (c.toNat % 16)]
  else [c]

/-- A string in quotation marks, escaped. -/
def quote (s : String) : String :=
  String.ofList ('"' :: (s.toList.flatMap escapeChar ++ ['"']))

mutual
/-- The compact text of a value. -/
def Value.compact : Value → String
  | .null => "null"
  | .bool true => "true"
  | .bool false => "false"
  | .num n => n.text
  | .str s => quote s
  | .arr items => "[" ++ compactItems items ++ "]"
  | .obj fs => "\x7b" ++ compactFields fs ++ "\x7d"

/-- Compact items, comma-separated. -/
def compactItems : List Value → String
  | [] => ""
  | [v] => v.compact
  | v :: rest => v.compact ++ "," ++ compactItems rest

/-- Compact fields, comma-separated. -/
def compactFields : Fields → String
  | [] => ""
  | [(k, v)] => quote k ++ ":" ++ v.compact
  | (k, v) :: rest => quote k ++ ":" ++ v.compact ++ "," ++ compactFields rest
end

/-- A newline and the indentation of `depth` levels. -/
def newline (depth : Nat) : String := "\n" ++ String.ofList (List.replicate (2 * depth) ' ')

mutual
/-- The pretty text of a value whose first line stands at indentation level `depth`. -/
def Value.prettyAt (depth : Nat) : Value → String
  | .arr [] => "[]"
  | .obj [] => "\x7b\x7d"
  | .arr items => "[" ++ prettyItems (depth + 1) items ++ newline depth ++ "]"
  | .obj fs => "\x7b" ++ prettyFields (depth + 1) fs ++ newline depth ++ "\x7d"
  | v => v.compact

/-- Pretty items, each on its own line at level `depth`. -/
def prettyItems (depth : Nat) : List Value → String
  | [] => ""
  | [v] => newline depth ++ v.prettyAt depth
  | v :: rest => newline depth ++ v.prettyAt depth ++ "," ++ prettyItems depth rest

/-- Pretty fields, each on its own line at level `depth`. -/
def prettyFields (depth : Nat) : Fields → String
  | [] => ""
  | [(k, v)] => newline depth ++ quote k ++ ": " ++ v.prettyAt depth
  | (k, v) :: rest => newline depth ++ quote k ++ ": " ++ v.prettyAt depth ++ "," ++ prettyFields depth rest
end

/-- The pretty text of a value. -/
def Value.pretty (v : Value) : String := v.prettyAt 0

end OrgDeploy.Json
