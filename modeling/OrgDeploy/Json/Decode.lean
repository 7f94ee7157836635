import OrgDeploy.Json.Document
import OrgDeploy.Text.Unicode

/-!
# Decoding documents into typed values

A `Decoder α` turns a `Node` into an `α` or a `Problem`. The same decoders serve three sources,
told apart by `Origin`:

* `text`: nodes of a `Document`. A problem is placed at the character index where a reader
  going through the text meets it: a wrongly typed scalar just after the scalar, a wrongly typed
  container at its opening bracket, a problem found by a record after its closing brace, and so
  on. Faults of the text are met in reading order, so the first problem in the text wins.
* `value`: an in-memory value, keys sorted and distinct; problems carry no position.
* `buffered`: a fragment kept aside in text order (for a flattened remainder or for trying
  several shapes in turn); problems carry no position until an enclosing text decoder places them.

The building blocks are scalars (`string`, `bool`, `natural`), `option`, `list`, `dict`, `json`
(any value), `record` (named fields, an optional flattened remainder), `variant` (a name from a
fixed list) and `firstOf` (the first of several shapes that fits).

Source: the serde derives of the types the source reads (`orgform-config/src`,
`orgform-organization/src/entity.rs`, `orgform-state/src/types.rs`,
`orgform-engine/src/config.rs`).
-/

namespace OrgDeploy.Json

/-- Where the nodes being decoded came from. -/
inductive Origin where
  | text
  | value
  | buffered
  deriving DecidableEq, Repr

/-- The decoding context: the origin, and the text for `text` nodes. -/
structure Ctx where
  origin : Origin
  src : Array Char := #[]

/-- A decoding problem: its message and, once placed, the character index it is reported at
and the bytes of that character read before it (see `Fault`). -/
structure Problem where
  msg : String
  index : Option Nat
  past : Nat
  deriving Repr

/-- The problem of a text fault. -/
def Problem.ofFault (f : Fault) : Problem := ⟨f.code.message, some f.index, f.past⟩

/-- A problem with no position yet. -/
def Problem.custom (msg : String) : Problem := ⟨msg, none, 0⟩

/-- The message of a problem, with line and column when it is placed in `src`. -/
def Problem.render (src : Array Char) (p : Problem) : String :=
  match p.index with
  | some i => placeMessage src p.msg i p.past
  | none => p.msg

/-- Decodes a node. -/
abbrev Decoder (α : Type) := Ctx → Node → Except Problem α

namespace Ctx

/-- Places a problem without position just before index `i`, for nodes of text. -/
def place (ctx : Ctx) (i : Nat) (p : Problem) : Problem :=
  if ctx.origin = .text ∧ p.index.isNone then ⟨p.msg, some i, 0⟩ else p

/-- Where a reader stands after giving up just after index `i` inside a container closed by
`closer`: past the whitespace, and past the closer if that comes next. -/
def closeAfter (ctx : Ctx) (i : Nat) (closer : Char) : Nat :=
  let q := skipWs ctx.src i
  if ctx.src[q]? = some closer then q + 1 else q

/-- The same origin for a buffered fragment. -/
def buffered : Ctx := ⟨.buffered, #[]⟩

end Ctx

/-- A lowercase hex numeral. -/
def hexText (n : Nat) : String := String.ofList (Nat.toDigits 16 n)

/-- Characters a debug rendering of a string writes as an escape: those that extend a grapheme
and those that are not printable. -/
def debugHidden (c : Char) : Bool := Text.isGraphemeExtend c || !Text.isPrintable c

/-- A string in quotation marks as a debug rendering shows it: `\0 \t \r \n \\ \"` by name,
hidden characters as `\u{hex}`. -/
def debugQuote (s : String) : String :=
  let esc (c : Char) : List Char :=
    if c.toNat = 0 then ['\\', '0']
    else if c = '\t' then ['\\', 't']
    else if c = '\r' then ['\\', 'r']
    else if c = '\n' then ['\\', 'n']
    else if c = '\\' then ['\\', '\\']
    else if c = '"' then ['\\', '"']
    else if debugHidden c then ("\\u\x7b" ++ hexText c.toNat ++ "\x7d").toList
    else [c]
  String.ofList ('"' :: (s.toList.flatMap esc ++ ['"']))

/-- How a node is named when it has the wrong type; a fault of the text instead when reading
the scalar fails. -/
def Node.describe : Node → Except Problem String
  | .null .. => .ok "null"
  | .bool b .. => .ok s!"boolean `{b}`"
  | .num r .. => match r with
    | .ok n => .ok n.unexpected
    | .error f => .error (.ofFault f)
  | .str r .. => match r with
    | .ok s => .ok ("string " ++ debugQuote s)
    | .error f => .error (.ofFault f)
  | .seq .. => .ok "sequence"
  | .map .. => .ok "map"
  | .fault r _ => .error (.ofFault r)

/-- Where a problem about a whole node is placed: after a scalar, at a container's bracket. -/
def Node.typePosition : Node → Nat
  | .seq s .. | .map s .. => s
  | n => n.stop

/-- "invalid type: <node>, expected <what>". -/
def invalidType (ctx : Ctx) (n : Node) (expected : String) : Problem :=
  match n.describe with
  | .error p => p
  | .ok what => ctx.place n.typePosition (.custom s!"invalid type: {what}, expected {expected}")

/-- "invalid value: <what>, expected <expected>", placed after the node. -/
def invalidValue (ctx : Ctx) (n : Node) (what expected : String) : Problem :=
  ctx.place n.stop (.custom s!"invalid value: {what}, expected {expected}")

/-- The key text of an entry. -/
def Node.keyText : Node → Except Problem String
  | .str r .. => r.mapError Problem.ofFault
  | .fault r _ => .error (.ofFault r)
  | _ => .ok ""

/-- The problem of a container nested too deeply to read. -/
def tooDeep (start : Nat) : Problem := .ofFault (.on .recursionLimit start)

/-- Reads a node whole, into a value with fields in text order. -/
def Ctx.capture (_ : Ctx) (n : Node) : Except Problem Value :=
  n.content.mapError Problem.ofFault

namespace Decoder

/-- A string. -/
def string : Decoder String := fun ctx n =>
  match n with
  | .str r .. => r.mapError Problem.ofFault
  | _ => .error (invalidType ctx n "a string")

/-- A string checked by `f`, whose complaint is placed just after the string. -/
def stringWith (f : String → Except String α) : Decoder α := fun ctx n => do
  let s ← string ctx n
  match f s with
  | .ok a => pure a
  | .error msg => .error (ctx.place n.stop (.custom msg))

/-- A boolean. -/
def bool : Decoder Bool := fun ctx n =>
  match n with
  | .bool b .. => .ok b
  | _ => .error (invalidType ctx n "a boolean")

/-- A non-negative integer up to `limit`, named `expected` in complaints. -/
def natural (expected : String) (limit : Nat) : Decoder Nat := fun ctx n =>
  match n with
  | .num (.ok (.nat k)) .. =>
    if k ≤ limit then .ok k else .error (invalidValue ctx n s!"integer `{k}`" expected)
  | .num (.ok (.negInt i)) .. => .error (invalidValue ctx n s!"integer `{i}`" expected)
  | _ => .error (invalidType ctx n expected)

/-- Any JSON value, objects sorted. -/
def json : Decoder Value := fun ctx n => (ctx.capture n).map Value.normalize

/-- `null` as nothing, anything else by `d`. -/
def option (d : Decoder α) : Decoder (Option α) := fun ctx n =>
  match n with
  | .null .. => .ok none
  | _ => (d ctx n).map some

/-- An array, each item by `d`. -/
def list (d : Decoder α) : Decoder (List α) := fun ctx n =>
  match n with
  | .seq start deep items _ => if deep then .error (tooDeep start) else go ctx items
  | _ => .error (invalidType ctx n "a sequence")
where
  go (ctx : Ctx) : List Node → Except Problem (List α)
    | [] => .ok []
    | it :: rest =>
      match d ctx it with
      | .error p => .error (ctx.place (ctx.closeAfter it.stop ']') p)
      | .ok v => (go ctx rest).map (v :: ·)

/-- An object of string keys, each value by `d`, as sorted distinct keys (the last of equal keys
wins). -/
def dict (d : Decoder α) : Decoder (List (String × α)) := fun ctx n =>
  match n with
  | .map start deep entries _ => if deep then .error (tooDeep start) else go ctx entries []
  | _ => .error (invalidType ctx n "a map")
where
  insert (k : String) (v : α) : List (String × α) → List (String × α)
    | [] => [(k, v)]
    | (k', v') :: rest =>
      if k < k' then (k, v) :: (k', v') :: rest
      else if k = k' then (k, v) :: rest
      else (k', v') :: insert k v rest
  go (ctx : Ctx) : List (Node × Node) → List (String × α) → Except Problem (List (String × α))
    | [], acc => .ok acc
    | (k, v) :: rest, acc => do
      let key ← k.keyText
      match d ctx v with
      | .error p => .error (ctx.place (ctx.closeAfter v.stop '\x7d') p)
      | .ok value => go ctx rest (insert key value acc)

/-- "`a`", "`a` or `b`", "one of `a`, `b`, `c`". -/
def oneOf (names : List String) : String :=
  match names with
  | [a] => s!"`{a}`"
  | [a, b] => s!"`{a}` or `{b}`"
  | _ => "one of " ++ ", ".intercalate (names.map fun a => s!"`{a}`")

/-- The complaint about a name outside `names`. -/
def unknownVariant (s : String) (names : List String) : String :=
  if names.isEmpty then s!"unknown variant `{s}`, there are no variants"
  else s!"unknown variant `{s}`, expected {oneOf names}"

/-- One of the named constants `cases`: a string naming it, or an object whose single key names
it with `null` as value. -/
def variant (cases : List (String × α)) : Decoder α := fun ctx n =>
  let names := cases.map Prod.fst
  let byName (s : String) (at_ : Nat) : Except Problem α :=
    match cases.lookup s with
    | some a => .ok a
    | none => .error (ctx.place at_ (.custom (unknownVariant s names)))
  let unitValue (v : Node) : Except Problem Unit :=
    match v with
    | .null .. => .ok ()
    | _ => .error (invalidType ctx v "unit")
  match ctx.origin, n with
  | _, .str r _ _ stop => do
    let s ← r.mapError Problem.ofFault
    byName s stop
  | .text, .map start deep entries close =>
    if deep then .error (tooDeep start)
    else match entries with
      | [] => .error (.ofFault (.on .expectedValue (close.getD start)))
      | (k, v) :: _ => do
        let s ← k.keyText
        let a ← byName s k.stop
        unitValue v
        let q := skipWs ctx.src v.stop
        match ctx.src[q]? with
        | some '\x7d' => pure a
        | some _ => .error (.ofFault (.before .expectedValue q))
        | none => .error (.ofFault (.before .eofObject q))
  | .text, .fault r _ => .error (.ofFault r)
  | .text, _ => .error (.ofFault (.on .expectedValue n.start))
  | _, .map _ _ [(k, v)] _ => do
    let s ← k.keyText
    let a ← byName s 0
    unitValue v
    pure a
  | _, .map .. => .error (.custom "invalid value: map, expected map with a single key")
  | _, _ => .error (invalidType ctx n "string or map")

/-- The first shape among `alternatives` that decodes the node, kept aside and read whole first;
`enum` names the shapes in the complaint when none fits. -/
def firstOf (enum : String) (alternatives : List (Decoder α)) : Decoder α := fun ctx n => do
  let v ← ctx.capture n
  let node := Node.ofValue v
  match alternatives.findSome? fun d => (d Ctx.buffered node).toOption with
  | some a => pure a
  | none => .error (.custom s!"data did not match any variant of untagged enum {enum}")

end Decoder

/-- A named field of a record: how its value updates the record under construction. -/
structure Field (σ : Type) where
  name : String
  decode : Decoder (σ → σ)
  /-- A required field has no default: leaving it out is a problem. -/
  required : Bool := false

/-- The shape of a record: its name in complaints, its fields, the record with every default,
and optionally a decoder for the entries no field names, read together after the fields. -/
structure Shape (σ : Type) where
  name : String
  fields : List (Field σ)
  init : σ
  rest : Option (Ctx → Fields → Except Problem (σ → σ)) := none

namespace Shape

/-- The field called `k`. -/
def field? (shape : Shape σ) (k : String) : Option (Field σ) := shape.fields.find? (·.name == k)

/-- The fields an object leaves out, first required one in declaration order. -/
def firstMissing (shape : Shape σ) (seen : List String) : Option String :=
  (shape.fields.find? fun f => f.required && !seen.contains f.name).map (·.name)

/-- Reads the entries of an object in order: a known field once, unknown ones skipped or kept
for the remainder. Returns the record, the names seen and the kept entries. -/
def entries (shape : Shape σ) (ctx : Ctx) :
    List (Node × Node) → σ → List String → Fields → Except Problem (σ × List String × Fields)
  | [], acc, seen, kept => .ok (acc, seen, kept)
  | (k, v) :: rest, acc, seen, kept => do
    let key ← k.keyText
    match shape.field? key with
    | some f =>
      if seen.contains key then
        .error (ctx.place (ctx.closeAfter k.stop '\x7d') (.custom s!"duplicate field `{key}`"))
      else
        match f.decode ctx v with
        | .error p => .error (ctx.place (ctx.closeAfter v.stop '\x7d') p)
        | .ok set => shape.entries ctx rest (set acc) (key :: seen) kept
    | none =>
      if shape.rest.isSome then
        let value ← ctx.capture v
        shape.entries ctx rest acc seen (kept ++ [(key, value)])
      else
        match (if ctx.origin = .text then v.skipFault else none) with
        | some f => .error (.ofFault f)
        | none => shape.entries ctx rest acc seen kept

/-- The record from an object's entries, then the required fields, then the remainder. -/
def ofEntries (shape : Shape σ) (ctx : Ctx) (entries : List (Node × Node)) (endAt : Nat) :
    Except Problem σ := do
  let (acc, seen, kept) ← shape.entries ctx entries shape.init [] []
  match shape.firstMissing seen with
  | some name => .error (ctx.place endAt (.custom s!"missing field `{name}`"))
  | none =>
    match shape.rest with
    | none => pure acc
    | some r =>
      match r Ctx.buffered kept with
      | .ok set => pure (set acc)
      | .error p => .error (ctx.place endAt p)

/-- "struct X with n elements". -/
def lengthExpectation (shape : Shape σ) : String :=
  let n := shape.fields.length
  let plural := if n == 1 then "" else "s"
  s!"{shape.name} with {n} element{plural}"

/-- The record from an array: the fields in declaration order take the items in order. -/
def ofItems (shape : Shape σ) (ctx : Ctx) (items : List Node) (endAt : Nat) : Except Problem σ :=
  go shape.fields items shape.init 0 0
where
  go : List (Field σ) → List Node → σ → Nat → Nat → Except Problem σ
    | f :: fs, it :: its, acc, i, _ =>
      match f.decode ctx it with
      | .error p => .error (ctx.place (ctx.closeAfter it.stop ']') p)
      | .ok set => go fs its (set acc) (i + 1) it.stop
    | f :: fs, [], acc, i, last =>
      if f.required then
        .error (ctx.place endAt (.custom s!"invalid length {i}, expected {shape.lengthExpectation}"))
      else go fs [] acc (i + 1) last
    | [], [], acc, _, _ => .ok acc
    | [], extra, _, i, last =>
      match ctx.origin with
      | .text =>
        let q := skipWs ctx.src last
        let after (k : Nat) : Fault :=
          if k < ctx.src.size then .on .trailingCharacters k
          else .before .trailingCharacters ctx.src.size
        match ctx.src[q]? with
        | none => .error (.ofFault (.before .eofList ctx.src.size))
        | some ',' =>
          let q' := skipWs ctx.src (q + 1)
          if ctx.src[q']? = some ']' then .error (.ofFault (.on .trailingComma q'))
          else .error (.ofFault (after q'))
        | some _ => .error (.ofFault (after q))
      | .value =>
        let total := i + extra.length
        .error (.custom s!"invalid length {total}, expected fewer elements in array")
      | .buffered =>
        let total := i + extra.length
        let plural := if i == 1 then "" else "s"
        .error (.custom s!"invalid length {total}, expected {i} element{plural} in sequence")

end Shape

/-- A record of the given shape, from an object (or, without a remainder, from an array). -/
def Decoder.record (shape : Shape σ) : Decoder σ := fun ctx n =>
  match n with
  | .map start deep entries close =>
    if deep then .error (tooDeep start)
    else shape.ofEntries ctx entries ((close.getD start) + 1)
  | .seq start deep items close =>
    if shape.rest.isSome then .error (invalidType ctx n shape.name)
    else if deep then .error (tooDeep start)
    else shape.ofItems ctx items ((close.getD start) + 1)
  | _ => .error (invalidType ctx n shape.name)

/-- Decodes a whole text: the root by `d`, then nothing but whitespace may follow. -/
def Document.decode (doc : Document) (d : Decoder α) : Except Problem α := do
  let a ← d ⟨.text, doc.src⟩ doc.root
  match doc.trailing with
  | some f => .error (.ofFault f)
  | none => pure a

/-- Decodes an in-memory value. -/
def Value.decode (v : Value) (d : Decoder α) : Except Problem α :=
  d ⟨.value, #[]⟩ (Node.ofValue v)

/-- Decodes JSON text to the message a reader of it reports. -/
def decodeText (text : String) (d : Decoder α) : Except String α :=
  let doc := Document.read text
  (doc.decode d).mapError (Problem.render doc.src)

/-- Decodes an in-memory value to the message of its first problem. -/
def decodeValue (v : Value) (d : Decoder α) : Except String α :=
  (v.decode d).mapError (·.msg)

/-- A field setter from a decoder and an update. -/
def Field.of (name : String) (d : Decoder α) (set : α → σ → σ) : Field σ :=
  ⟨name, fun ctx n => (d ctx n).map set, false⟩

/-- A required field setter from a decoder and an update. -/
def Field.need (name : String) (d : Decoder α) (set : α → σ → σ) : Field σ :=
  ⟨name, fun ctx n => (d ctx n).map set, true⟩

end OrgDeploy.Json
