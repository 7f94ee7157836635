import OrgDeploy.Json.Scan
import OrgDeploy.Json.Value

/-!
# Documents: JSON text as a tree of positioned nodes

`Document.read` turns JSON text into a tree of `Node`s that remembers where every node starts and
stops, so that a decoder walking the tree can report a problem at the place where a reader
going through the text would have met it.

Reading stops at the first fault that no reader can get past (a bad separator, an unterminated
string, a bad word): that fault becomes a `Node.fault` standing where the next item would be, and
every enclosing container is left open (`close = none`). Faults that only a *reading* reader meets
(a number out of range, an unpaired surrogate escape, nesting deeper than 127 containers) are kept
inside the node, and the tree goes on, because a skipping reader passes them.

* `Node.content` reads a node into a `Value` with its fields in text order (the first fault met
  in reading order wins).
* `Node.skipFault` is the first fault a skipping reader meets.
* `Node.ofValue` puts an in-memory value into the same shape, with no positions.

Source: the serde_json reader behind every file and text the source parses.
-/

namespace OrgDeploy.Json

/-- A node of a document. Positions are character indices into the text. -/
inductive Node where
  | null (start stop : Nat)
  | bool (b : Bool) (start stop : Nat)
  | num (read : Except Fault Number) (skip : Option Fault) (start stop : Nat)
  | str (read : Except Fault String) (skip : Option Fault) (start stop : Nat)
  /-- An array; `deep` marks one nested too deeply to be read, `close` the index of its `]`. -/
  | seq (start : Nat) (deep : Bool) (items : List Node) (close : Option Nat)
  /-- An object, its entries as key node and value node in text order. -/
  | map (start : Nat) (deep : Bool) (entries : List (Node × Node)) (close : Option Nat)
  /-- Reading stops here; `read` and `skip` are the faults of a reading and a skipping reader. -/
  | fault (read skip : Fault)

instance : Inhabited Node := ⟨.null 0 0⟩

namespace Node

/-- Where the node starts. -/
def start : Node → Nat
  | .null s _ | .bool _ s _ | .num _ _ s _ | .str _ _ s _ | .seq s _ _ _ | .map s _ _ _ => s
  | .fault r _ => r.index

/-- The index just after the node. -/
def stop : Node → Nat
  | .null _ s | .bool _ _ s | .num _ _ _ s | .str _ _ _ s => s
  | .seq _ _ _ (some c) | .map _ _ _ (some c) => c + 1
  | _ => 0

/-- Whether reading cannot go past this node. -/
def broken : Node → Bool
  | .fault .. => true
  | .seq _ _ _ none | .map _ _ _ none => true
  | .num _ (some _) _ _ | .str _ (some _) _ _ => true
  | _ => false

/-- The same fault for both readers. -/
def stuck (f : Fault) : Node := .fault f f

end Node

/-- Recursion depth at which a container can no longer be read. -/
def depthLimit : Nat := 128

mutual
/-- Reads the value at or after index `i` inside `level` enclosing containers. `fuel` bounds the
chain of nested calls; the length of the text plus one always suffices. -/
def readNode (src : Array Char) : (fuel level i : Nat) → Node
  | 0, _, i => Node.stuck (.before .eofValue i)
  | fuel + 1, level, i =>
    let p := skipWs src i
    match src[p]? with
    | none => Node.stuck (.before .eofValue src.size)
    | some c =>
      if c = 'n' then
        match scanWord src (p + 1) ['u', 'l', 'l'] with
        | .ok stop => .null p stop
        | .error f => .fault f f
      else if c = 't' then
        match scanWord src (p + 1) ['r', 'u', 'e'] with
        | .ok stop => .bool true p stop
        | .error f => .fault f f
      else if c = 'f' then
        match scanWord src (p + 1) ['a', 'l', 's', 'e'] with
        | .ok stop => .bool false p stop
        | .error f => .fault f f
      else if c = '-' then
        let t := scanNumber src false (p + 1)
        .num t.read t.skip p t.stop
      else if isDigit c then
        let t := scanNumber src true p
        .num t.read t.skip p t.stop
      else if c = '"' then
        let t := scanString src (p + 1)
        .str t.read t.skip p t.stop
      else if c = '[' then
        let (items, close) := readItems src fuel (level + 1) (p + 1) [] true
        .seq p (level + 1 ≥ depthLimit) items close
      else if c = '\x7b' then
        let (entries, close) := readEntries src fuel (level + 1) (p + 1) [] true
        .map p (level + 1 ≥ depthLimit) entries close
      else Node.stuck (.on .expectedValue p)

/-- Reads the items of an array from index `j`; `acc` holds those read, newest first. -/
def readItems (src : Array Char) : (fuel level j : Nat) → List Node → Bool → List Node × Option Nat
  | 0, _, j, acc, _ => ((Node.stuck (.before .eofList j) :: acc).reverse, none)
  | fuel + 1, level, j, acc, first =>
    let q := skipWs src j
    let element (k : Nat) : List Node × Option Nat :=
      let node := readNode src fuel level k
      if node.broken then ((node :: acc).reverse, none)
      else readItems src fuel level node.stop (node :: acc) false
    match src[q]? with
    | none => ((Node.stuck (.before .eofList src.size) :: acc).reverse, none)
    | some c =>
      if c = ']' then (acc.reverse, some q)
      else if first then element q
      else if c = ',' then
        let q' := skipWs src (q + 1)
        match src[q']? with
        | none => ((Node.stuck (.before .eofValue src.size) :: acc).reverse, none)
        | some ']' =>
          ((.fault (.on .trailingComma q') (.on .expectedValue q') :: acc).reverse, none)
        | some _ => element q'
      else ((Node.stuck (.on .expectedListCommaOrEnd q) :: acc).reverse, none)

/-- Reads the entries of an object from index `j`; `acc` holds those read, newest first. -/
def readEntries (src : Array Char) : (fuel level j : Nat) → List (Node × Node) → Bool →
    List (Node × Node) × Option Nat
  | 0, _, j, acc, _ =>
    let f := Node.stuck (.before .eofObject j)
    (((f, f) :: acc).reverse, none)
  | fuel + 1, level, j, acc, first =>
    let q := skipWs src j
    let stop (f : Node) : List (Node × Node) × Option Nat := (((f, f) :: acc).reverse, none)
    let entry (k : Nat) : List (Node × Node) × Option Nat :=
      if src[k]? != some '"' then stop (Node.stuck (.on .keyMustBeString k))
      else
        let t := scanString src (k + 1)
        let key := Node.str t.read t.skip k t.stop
        match t.skip with
        | some f =>
          let r := match t.read with
            | .error g => g
            | .ok _ => f
          (((key, .fault r f) :: acc).reverse, none)
        | none =>
          let c := skipWs src t.stop
          match src[c]? with
          | none => (((key, Node.stuck (.before .eofObject src.size)) :: acc).reverse, none)
          | some ':' =>
            let value := readNode src fuel level (c + 1)
            if value.broken then (((key, value) :: acc).reverse, none)
            else readEntries src fuel level value.stop ((key, value) :: acc) false
          | some _ => (((key, Node.stuck (.on .expectedColon c)) :: acc).reverse, none)
    match src[q]? with
    | none => stop (Node.stuck (.before .eofObject src.size))
    | some c =>
      if c = '\x7d' then (acc.reverse, some q)
      else if first then entry q
      else if c = ',' then
        let q' := skipWs src (q + 1)
        match src[q']? with
        | none => stop (.fault (.before .eofValue src.size) (.before .eofObject src.size))
        | some '\x7d' => stop (.fault (.on .trailingComma q') (.on .keyMustBeString q'))
        | some _ => entry q'
      else stop (Node.stuck (.on .expectedObjectCommaOrEnd q))
end

/-- JSON text read into a tree: the text, its root node, and the fault of anything but
whitespace after the root. -/
structure Document where
  src : Array Char
  root : Node
  trailing : Option Fault

/-- Reads a whole text. -/
def Document.read (text : String) : Document :=
  let src := text.toList.toArray
  let root := readNode src (src.size + 2) 0 0
  let trailing :=
    if root.broken then none
    else
      let q := skipWs src root.stop
      if q < src.size then some (.on .trailingCharacters q) else none
  ⟨src, root, trailing⟩

mutual
/-- A node read into a value with fields in text order; the first fault met in reading order. -/
def Node.content : Node → Except Fault Value
  | .null .. => .ok .null
  | .bool b .. => .ok (.bool b)
  | .num r .. => r.map .num
  | .str r .. => r.map .str
  | .seq start deep items _ =>
    if deep then .error (.on .recursionLimit start) else (contentItems items).map .arr
  | .map start deep entries _ =>
    if deep then .error (.on .recursionLimit start) else (contentEntries entries).map .obj
  | .fault r _ => .error r

/-- `Node.content` of every item. -/
def contentItems : List Node → Except Fault (List Value)
  | [] => .ok []
  | n :: rest => do
    let v ← n.content
    let vs ← contentItems rest
    pure (v :: vs)

/-- `Node.content` of every entry, keys read as strings. -/
def contentEntries : List (Node × Node) → Except Fault Fields
  | [] => .ok []
  | (k, v) :: rest => do
    let key ← match k with
      | .str r .. => r
      | .fault r _ => .error r
      | _ => .ok ""
    let value ← v.content
    let fs ← contentEntries rest
    pure ((key, value) :: fs)
end

mutual
/-- The first fault a skipping reader meets in a node. -/
def Node.skipFault : Node → Option Fault
  | .num _ s .. => s
  | .str _ s .. => s
  | .seq _ _ items _ => skipItems items
  | .map _ _ entries _ => skipEntries entries
  | .fault _ s => some s
  | _ => none

/-- `Node.skipFault` over items in order. -/
def skipItems : List Node → Option Fault
  | [] => none
  | n :: rest => n.skipFault <|> skipItems rest

/-- `Node.skipFault` over entries in order, key before value. -/
def skipEntries : List (Node × Node) → Option Fault
  | [] => none
  | (k, v) :: rest => k.skipFault <|> v.skipFault <|> skipEntries rest
end

mutual
/-- An in-memory value as a node without positions. -/
def Node.ofValue : Value → Node
  | .null => .null 0 0
  | .bool b => .bool b 0 0
  | .num n => .num (.ok n) none 0 0
  | .str s => .str (.ok s) none 0 0
  | .arr items => .seq 0 false (ofItems items) (some 0)
  | .obj fs => .map 0 false (ofFields fs) (some 0)

/-- `Node.ofValue` of every item. -/
def ofItems : List Value → List Node
  | [] => []
  | v :: rest => Node.ofValue v :: ofItems rest

/-- `Node.ofValue` of every field, keys as string nodes. -/
def ofFields : Fields → List (Node × Node)
  | [] => []
  | (k, v) :: rest => (.str (.ok k) none 0 0, Node.ofValue v) :: ofFields rest
end

/-- Reads a whole text as a value, objects sorted: the first fault met, or trailing text. -/
def Document.value (d : Document) : Except Fault Value := do
  let v ← d.root.content
  match d.trailing with
  | some f => .error f
  | none => pure v.normalize

/-- The message of a fault of this document's text, with its line and column. -/
def Document.faultMessage (d : Document) (f : Fault) : String :=
  placeMessage d.src f.code.message f.index f.past

/-- Reads a JSON text as a value, or the reader's message with its line and column. -/
def parseValue (text : String) : Except String Value :=
  let doc := Document.read text
  doc.value.mapError doc.faultMessage

end OrgDeploy.Json
