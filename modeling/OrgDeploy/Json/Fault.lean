/-!
# Syntax faults of JSON text

A fault is what stops a reader: a `Fault.Code` and the place at which it is reported.
`Fault.Code.message` is the wording of each code, and `lineColumn` turns a place into the line
(from 1) and column reported with it.

The reader works on the bytes of the UTF-8 text, so a place is a character index and a number of
bytes of that character already read: a fault found between two characters has none
(`Fault.before`), and a fault found on a character the reader could not take has its first byte
read (`Fault.on`). Columns count UTF-8 bytes from the start of the line, so a fault right after
`"é"` on the first line is at column 4, a fault on an unexpected `é` at the start of the text is at
column 1, and the very start of the text is column 0.

Source: the serde_json reader behind every file and text the source parses.
-/

namespace OrgDeploy.Json

/-- What went wrong while reading JSON text. -/
inductive Fault.Code where
  | eofList
  | eofObject
  | eofString
  | eofValue
  | expectedColon
  | expectedListCommaOrEnd
  | expectedObjectCommaOrEnd
  | expectedIdent
  | expectedValue
  | invalidEscape
  | invalidNumber
  | numberOutOfRange
  | controlCharacter
  | keyMustBeString
  | loneLeadingSurrogate
  | trailingComma
  | trailingCharacters
  | unexpectedEndOfHexEscape
  | recursionLimit
  deriving DecidableEq, Repr

/-- The wording of a fault. -/
def Fault.Code.message : Fault.Code → String
  | .eofList => "EOF while parsing a list"
  | .eofObject => "EOF while parsing an object"
  | .eofString => "EOF while parsing a string"
  | .eofValue => "EOF while parsing a value"
  | .expectedColon => "expected `:`"
  | .expectedListCommaOrEnd => "expected `,` or `]`"
  | .expectedObjectCommaOrEnd => "expected `,` or `\x7d`"
  | .expectedIdent => "expected ident"
  | .expectedValue => "expected value"
  | .invalidEscape => "invalid escape"
  | .invalidNumber => "invalid number"
  | .numberOutOfRange => "number out of range"
  | .controlCharacter => "control character (\\u0000-\\u001F) found while parsing a string"
  | .keyMustBeString => "key must be a string"
  | .loneLeadingSurrogate => "lone leading surrogate in hex escape"
  | .trailingComma => "trailing comma"
  | .trailingCharacters => "trailing characters"
  | .unexpectedEndOfHexEscape => "unexpected end of hex escape"
  | .recursionLimit => "recursion limit exceeded"

/-- A fault and where it is reported: `past` bytes into the character at index `index`. -/
structure Fault where
  code : Fault.Code
  index : Nat
  past : Nat
  deriving DecidableEq, Repr

/-- A fault reported between characters, just before index `i`. -/
def Fault.before (code : Fault.Code) (i : Nat) : Fault := ⟨code, i, 0⟩

/-- A fault reported on the character at index `i`, whose first byte the reader has taken. -/
def Fault.on (code : Fault.Code) (i : Nat) : Fault := ⟨code, i, 1⟩

/-- One character more on a line: a newline starts the next line at column 0. -/
def stepLine (lc : Nat × Nat) (c : Char) : Nat × Nat :=
  if c = '\n' then (lc.1 + 1, 0) else (lc.1, lc.2 + c.utf8Size)

/-- The line and column after `n` more bytes of `cs`: whole characters move as `stepLine` does,
and a character cut short adds the bytes taken of it. -/
def stepBytes : List Char → Nat → Nat × Nat → Nat × Nat
  | [], _, lc => lc
  | c :: cs, n, lc =>
    if n = 0 then lc
    else if c.utf8Size ≤ n then stepBytes cs (n - c.utf8Size) (stepLine lc c)
    else (lc.1, lc.2 + n)

/-- The line (from 1) and byte column of the place `past` bytes into character index `i` of
`src`: the column counts the UTF-8 bytes between the last newline before it and it. -/
def lineColumn (src : Array Char) (i past : Nat) : Nat × Nat :=
  stepBytes (src.toList.drop i) past ((src.toList.take i).foldl stepLine (1, 0))

/-- A message placed in the text: `"… at line L column C"`. -/
def placeMessage (src : Array Char) (msg : String) (i past : Nat) : String :=
  let (line, col) := lineColumn src i past
  s!"{msg} at line {line} column {col}"

end OrgDeploy.Json
