import OrgDeploy.Json.Fault
import OrgDeploy.Json.Number

/-!
# Scanning JSON numbers and strings

A number or a string of JSON text is scanned in two ways, because a document reader meets it in
two situations:

* *read*: its value is wanted. A number becomes a `Number` (an integer that fits stays exact, all
  else is a double built from at most 19 leading digits and a power of ten, and may be out of
  range), and a string's `\u` escapes must pair their surrogates.
* *skipped*: only its extent is wanted. Digits are not evaluated and escapes are not paired, so a
  skipped `1e400` is fine while a read one is a fault; some faults are also reported with other
  codes or at other places.

`scanNumber` and `scanString` return both outcomes and the index where the token stops.

Source: the serde_json reader behind every file and text the source parses.
-/

namespace OrgDeploy.Json

/-- Whether a character is an ASCII digit. -/
def isDigit (c : Char) : Bool := '0' ≤ c && c ≤ '9'

/-- The value of an ASCII digit. -/
def digitVal (c : Char) : Nat := c.toNat - 48

/-- The first index at or after `i` that holds no JSON whitespace (space, tab, newline, return). -/
def skipWs (src : Array Char) (i : Nat) : Nat :=
  if h : i < src.size then
    let c := src[i]
    if c = ' ' ∨ c = '\n' ∨ c = '\t' ∨ c = '\r' then skipWs src (i + 1) else i
  else i
termination_by src.size - i

/-- The first index at or after `i` that holds no ASCII digit. -/
def skipDigits (src : Array Char) (i : Nat) : Nat :=
  if h : i < src.size then
    if isDigit src[i] then skipDigits src (i + 1) else i
  else i
termination_by src.size - i

/-- The double nearest to `n` (ties to an even mantissa). -/
def natToFloat (n : Nat) : Float :=
  if n < Nat.pow 2 53 then n.toUInt64.toFloat
  else
    let shift := Nat.log2 n - 52
    let q := n >>> shift
    let r := n - (q <<< shift)
    let half := 1 <<< (shift - 1)
    let q := if r > half || (r == half && q % 2 == 1) then q + 1 else q
    if q == Nat.pow 2 53 then (q / 2).toUInt64.toFloat.scaleB ((shift : Int) + 1)
    else q.toUInt64.toFloat.scaleB shift

/-- `10 ^ k` as the nearest double. -/
def pow10Float (k : Nat) : Float := natToFloat (Nat.pow 10 k)

/-- Whether `acc * 10 + d` exceeds `limit`. -/
def overflows (acc d limit : Nat) : Bool :=
  acc ≥ limit / 10 && (acc > limit / 10 || d > limit % 10)

/-- The exponent range of a 32-bit signed integer, to which exponents saturate. -/
def clampExponent (e : Int) : Int := max (-2147483648) (min 2147483647 e)

/-- `significand · 10 ^ exponent` as a double: the significand is converted first and then
multiplied or divided by one power of ten (by `10^308` repeatedly while the exponent is below
`-308`). A product that overflows is a fault at `i`. -/
def fromParts (i : Nat) (positive : Bool) (significand : Nat) (exponent : Int) :
    Except Fault Number :=
  go 8 (natToFloat significand) exponent
where
  signed (f : Float) : Number := .float (if positive then f else -f)
  go : Nat → Float → Int → Except Fault Number
    | 0, f, _ => .ok (signed f)
    | fuel + 1, f, e =>
      if e.natAbs ≤ 308 then
        if e ≥ 0 then
          let g := f * pow10Float e.natAbs
          if g.isInf then .error (.before .numberOutOfRange i) else .ok (signed g)
        else .ok (signed (f / pow10Float e.natAbs))
      else if f == 0 then .ok (signed f)
      else if e ≥ 0 then .error (.before .numberOutOfRange i)
      else go fuel (f / pow10Float 308) (e + 308)

/-- Reads the exponent part of a number; `i` is at the `e`. An exponent too large for 32 bits
is a fault unless the significand is zero or the exponent negative, when the value is zero. -/
def readExponent (src : Array Char) (positive : Bool) (significand : Nat) (start : Int) (i : Nat) :
    Except Fault Number :=
  let j := i + 1
  let (plus, j) :=
    match src[j]? with
    | some '+' => (true, j + 1)
    | some '-' => (false, j + 1)
    | _ => (true, j)
  match src[j]? with
  | none => .error (.before .eofValue j)
  | some c => if isDigit c then loop plus (j + 1) (digitVal c) else .error (.on .invalidNumber j)
where
  loop (plus : Bool) (j : Nat) (e : Nat) : Except Fault Number :=
    if h : j < src.size then
      let c := src[j]
      if isDigit c then
        if overflows e (digitVal c) 2147483647 then
          if significand != 0 && plus then .error (.before .numberOutOfRange (j + 1))
          else .ok (.float (if positive then 0.0 else -0.0))
        else loop plus (j + 1) (e * 10 + digitVal c)
      else finish plus j e
    else finish plus j e
  termination_by src.size - j
  finish (plus : Bool) (j : Nat) (e : Nat) : Except Fault Number :=
    fromParts j positive significand (clampExponent (if plus then start + e else start - e))

/-- After the significand's digits: an exponent, or the end of the number. -/
def readTail (src : Array Char) (positive : Bool) (significand : Nat) (exponent : Int) (i : Nat) :
    Except Fault Number :=
  match src[i]? with
  | some 'e' | some 'E' => readExponent src positive significand exponent i
  | _ => fromParts i positive significand exponent

/-- Reads a fraction; `i` is at the `.`. Digits that would overflow 64 bits are dropped. -/
def readDecimal (src : Array Char) (positive : Bool) (significand : Nat) (before : Int) (i : Nat) :
    Except Fault Number :=
  loop (i + 1) significand 0
where
  loop (j : Nat) (sig : Nat) (after : Nat) : Except Fault Number :=
    if h : j < src.size then
      let c := src[j]
      if isDigit c then
        if overflows sig (digitVal c) Number.natLimit then
          readTail src positive sig (before - after) (skipDigits src j)
        else loop (j + 1) (sig * 10 + digitVal c) (after + 1)
      else if after == 0 then .error (.on .invalidNumber j)
      else readTail src positive sig (before - after) j
    else if after == 0 then .error (.before .eofValue j)
    else readTail src positive sig (before - after) j
  termination_by src.size - j

/-- After the integer digits: a fraction, an exponent, or an integer. A negative integer below
`-2 ^ 63`, and `-0`, become doubles. -/
def readAfterInteger (src : Array Char) (positive : Bool) (significand : Nat) (exponent : Int)
    (i : Nat) : Except Fault Number :=
  match src[i]? with
  | some '.' => readDecimal src positive significand exponent i
  | some 'e' | some 'E' => readExponent src positive significand exponent i
  | _ =>
    if exponent != 0 then fromParts i positive significand exponent
    else if positive then .ok (.nat significand)
    else if significand == 0 || significand > Nat.pow 2 63 then
      .ok (.float (-(natToFloat significand)))
    else .ok (.negInt (-(significand : Int)))

/-- Reads the integer digits of a number; past 64 bits further digits only raise the exponent. -/
def readDigits (src : Array Char) (positive : Bool) (i : Nat) (sig : Nat) : Except Fault Number :=
  if h : i < src.size then
    let c := src[i]
    if isDigit c then
      if overflows sig (digitVal c) Number.natLimit then
        let j := skipDigits src i
        readAfterInteger src positive sig (j - i : Nat) j
      else readDigits src positive (i + 1) (sig * 10 + digitVal c)
    else readAfterInteger src positive sig 0 i
  else readAfterInteger src positive sig 0 i
termination_by src.size - i

/-- Reads a number whose digits start at `i` (after the minus sign of a negative one). -/
def readNumber (src : Array Char) (positive : Bool) (i : Nat) : Except Fault Number :=
  match src[i]? with
  | none => .error (.before .eofValue i)
  | some c =>
    if c = '0' then
      if (src[i + 1]?.map isDigit) == some true then .error (.on .invalidNumber (i + 1))
      else readAfterInteger src positive 0 0 (i + 1)
    else if isDigit c then readDigits src positive (i + 1) (digitVal c)
    else .error (.on .invalidNumber i)

/-- Skips the exponent part of a number; `i` is at the `e`. -/
def skipExponent (src : Array Char) (i : Nat) : Except Fault Nat :=
  let j := i + 1
  let j := match src[j]? with
    | some '+' | some '-' => j + 1
    | _ => j
  match src[j]? with
  | some c => if isDigit c then .ok (skipDigits src (j + 1)) else .error (.on .invalidNumber j)
  | none => .error (.before .invalidNumber j)

/-- Skips a number whose digits start at `i`, returning where it stops. -/
def skipNumber (src : Array Char) (i : Nat) : Except Fault Nat :=
  let afterInt (j : Nat) : Except Fault Nat :=
    match src[j]? with
    | some '.' =>
      let k := skipDigits src (j + 1)
      if k == j + 1 then
        .error (if k < src.size then .on .invalidNumber k else .before .invalidNumber src.size)
      else match src[k]? with
        | some 'e' | some 'E' => skipExponent src k
        | _ => .ok k
    | some 'e' | some 'E' => skipExponent src j
    | _ => .ok j
  match src[i]? with
  | none => .error (.before .invalidNumber i)
  | some c =>
    if c = '0' then
      if (src[i + 1]?.map isDigit) == some true then .error (.on .invalidNumber (i + 1))
      else afterInt (i + 1)
    else if isDigit c then afterInt (skipDigits src (i + 1))
    else .error (.on .invalidNumber i)

/-- A scanned number token: its value when read, its fault when skipped, and where it stops. -/
structure NumberToken where
  read : Except Fault Number
  skip : Option Fault
  stop : Nat

/-- Scans a number token; `i` is at its first digit, after the minus sign of a negative one. -/
def scanNumber (src : Array Char) (positive : Bool) (i : Nat) : NumberToken :=
  match skipNumber src i with
  | .ok stop => ⟨readNumber src positive i, none, stop⟩
  | .error f => ⟨readNumber src positive i, some f, 0⟩

/-- Whether the text from index `i` on holds at least `n` UTF-8 bytes. -/
def bytesFrom (src : Array Char) (i n : Nat) : Bool :=
  (src.extract i (i + n)).foldl (fun acc c => acc + c.utf8Size) 0 ≥ n

/-- The value of the four bytes at character index `i` read as hex digits, if they are: a
character beyond ASCII is never one, so the four characters from `i` must all be hex digits. -/
def hex4 (src : Array Char) (i : Nat) : Option Nat :=
  let digit (c : Char) : Option Nat :=
    if '0' ≤ c ∧ c ≤ '9' then some (c.toNat - 48)
    else if 'a' ≤ c ∧ c ≤ 'f' then some (c.toNat - 87)
    else if 'A' ≤ c ∧ c ≤ 'F' then some (c.toNat - 55)
    else none
  [0, 1, 2, 3].foldlM (fun acc k => do
    let c ← src[i + k]?
    let d ← digit c
    pure (acc * 16 + d)) 0

/-- The character of a one-letter escape (`\n` and the like), if `c` names one. -/
def simpleEscape (c : Char) : Option Char :=
  if c = '"' then some '"'
  else if c = '\\' then some '\\'
  else if c = '/' then some '/'
  else if c = 'b' then some (Char.ofNat 8)
  else if c = 'f' then some (Char.ofNat 12)
  else if c = 'n' then some '\n'
  else if c = 'r' then some '\r'
  else if c = 't' then some '\t'
  else none

/-- Reads a string whose first character is at `j` (after the opening quote), returning its text
and the index after the closing quote. A leading surrogate escape must be followed by a trailing
one. -/
def readString (src : Array Char) (j : Nat) (acc : List Char) : Except Fault (String × Nat) :=
  if h : j < src.size then
    let c := src[j]
    if c = '"' then .ok (String.ofList acc.reverse, j + 1)
    else if c = '\\' then
      match src[j + 1]? with
      | none => .error (.before .eofString (j + 1))
      | some e =>
        match simpleEscape e with
        | some d => readString src (j + 2) (d :: acc)
        | none =>
          if e = 'u' then
            if !bytesFrom src (j + 2) 4 then .error (.before .eofString src.size)
            else match hex4 src (j + 2) with
              | none => .error ⟨.invalidEscape, j + 2, 4⟩
              | some n =>
                if 0xDC00 ≤ n ∧ n ≤ 0xDFFF then .error (.before .loneLeadingSurrogate (j + 6))
                else if n < 0xD800 ∨ n > 0xDBFF then readString src (j + 6) (Char.ofNat n :: acc)
                else
                  let k := j + 6
                  match src[k]? with
                  | none => .error (.before .eofString k)
                  | some c2 =>
                    if c2 ≠ '\\' then .error (.on .unexpectedEndOfHexEscape k)
                    else match src[k + 1]? with
                      | none => .error (.before .eofString (k + 1))
                      | some c3 =>
                        if c3 ≠ 'u' then .error (.on .unexpectedEndOfHexEscape (k + 1))
                        else if !bytesFrom src (k + 2) 4 then .error (.before .eofString src.size)
                        else match hex4 src (k + 2) with
                          | none => .error ⟨.invalidEscape, k + 2, 4⟩
                          | some n2 =>
                            if n2 < 0xDC00 ∨ n2 > 0xDFFF then
                              .error (.before .loneLeadingSurrogate (k + 6))
                            else
                              let cp := ((n - 0xD800) <<< 10 ||| (n2 - 0xDC00)) + 0x10000
                              readString src (k + 6) (Char.ofNat cp :: acc)
          else .error (.on .invalidEscape (j + 1))
    else if c.toNat < 0x20 then .error (.before .controlCharacter (j + 1))
    else readString src (j + 1) (c :: acc)
  else .error (.before .eofString j)
termination_by src.size - j

/-- Skips a string whose first character is at `j`, returning the index after the closing quote.
Escapes are checked for form only. -/
def skipString (src : Array Char) (j : Nat) : Except Fault Nat :=
  if h : j < src.size then
    let c := src[j]
    if c = '"' then .ok (j + 1)
    else if c = '\\' then
      match src[j + 1]? with
      | none => .error (.before .eofString (j + 1))
      | some e =>
        if (simpleEscape e).isSome then skipString src (j + 2)
        else if e = 'u' then
          if !bytesFrom src (j + 2) 4 then .error (.before .eofString src.size)
          else if (hex4 src (j + 2)).isSome then skipString src (j + 6)
          else .error ⟨.invalidEscape, j + 2, 4⟩
        else .error (.on .invalidEscape (j + 1))
    else if c.toNat < 0x20 then .error (.before .controlCharacter j)
    else skipString src (j + 1)
  else .error (.before .eofString j)
termination_by src.size - j

/-- A scanned string token: its text when read, its fault when skipped, and where it stops. -/
structure StringToken where
  read : Except Fault String
  skip : Option Fault
  stop : Nat

/-- Scans a string token whose first character is at `j`, after the opening quote. -/
def scanString (src : Array Char) (j : Nat) : StringToken :=
  let read := (readString src j []).map Prod.fst
  match skipString src j with
  | .ok stop => ⟨read, none, stop⟩
  | .error f => ⟨read, some f, 0⟩

/-- Checks the letters of `true`, `false` or `null` after the first; returns where the word ends.
A missing letter is an end-of-text fault, a wrong one a fault just after it. -/
def scanWord (src : Array Char) (i : Nat) : List Char → Except Fault Nat
  | [] => .ok i
  | c :: rest =>
    match src[i]? with
    | none => .error (.before .eofValue i)
    | some d => if d = c then scanWord src (i + 1) rest else .error (.on .expectedIdent i)

end OrgDeploy.Json
