import OrgDeploy.Text.Unicode

/-!
# Timestamps

A `Timestamp` is an instant in UTC: a day number (days since 1970-01-01 in the proleptic
Gregorian calendar), the second of that day, and nanoseconds. A leap second is second 59 of its
minute with at least `10^9` nanoseconds.

* `Timestamp.parse` reads RFC 3339 text leniently: blanks may stand around the numbers and their
  separators, the date and time may be separated by `T`, `t` or a space, a fraction may have any
  number of digits (beyond nine they are ignored), and the offset is `Z`, `z`, `UTC` in any case,
  or `±HH:MM` (colon optional). The offset is applied, so the result is in UTC. Each failure is a
  `TimeError`: a calendar date must lie in the years `minYear .. maxYear` (`outOfRange`), and so
  must the instant once the offset is applied (`impossible`). A signed year is read as a
  32-bit number, so one beyond that is refused where it stands, before the rest of the text.
* `Timestamp.text` writes `YYYY-MM-DDTHH:MM:SS` with a fraction of 3, 6 or 9 digits only when
  needed, and `Z`.

Source: the timestamps of `orgform-state/src/types.rs:18-57` (`deployed_at`, `committed_at`),
chrono's `DateTime<Utc>`.
-/

namespace OrgDeploy

open OrgDeploy.Text

/-- An instant in UTC. -/
structure Timestamp where
  day : Int
  second : Nat
  nano : Nat
  deriving DecidableEq, Repr

/-- Why a timestamp text was refused. -/
inductive TimeError where
  | outOfRange
  | invalid
  | tooShort
  | tooLong
  | impossible
  deriving DecidableEq, Repr

/-- The wording of a refusal. -/
def TimeError.message : TimeError → String
  | .outOfRange => "input is out of range"
  | .invalid => "input contains invalid characters"
  | .tooShort => "premature end of input"
  | .tooLong => "trailing input"
  | .impossible => "no possible date and time matching input"

namespace Timestamp

/-- The Unix epoch. -/
def epoch : Timestamp := ⟨0, 0, 0⟩

/-- The day number of a civil date (month 1–12). -/
def dayOfCivil (y m d : Int) : Int :=
  let y := if m ≤ 2 then y - 1 else y
  let era := y / 400
  let yoe := y - era * 400
  let mp := (m + 9) % 12
  let doy := (153 * mp + 2) / 5 + d - 1
  let doe := yoe * 365 + yoe / 4 - yoe / 100 + doy
  era * 146097 + doe - 719468

/-- The civil date (year, month, day) of a day number. -/
def civilOfDay (z : Int) : Int × Nat × Nat :=
  let z := z + 719468
  let era := z / 146097
  let doe := z - era * 146097
  let yoe := (doe - doe / 1460 + doe / 36524 - doe / 146096) / 365
  let y := yoe + era * 400
  let doy := doe - (365 * yoe + yoe / 4 - yoe / 100)
  let mp := (5 * doy + 2) / 153
  let d := doy - (153 * mp + 2) / 5 + 1
  let m := if mp < 10 then mp + 3 else mp - 9
  (if m ≤ 2 then y + 1 else y, m.toNat, d.toNat)

/-- Whether a year is a leap year. -/
def leapYear (y : Int) : Bool := (y % 4 == 0 && y % 100 != 0) || y % 400 == 0

/-- The number of days of a month. -/
def monthLength (y : Int) (m : Nat) : Nat :=
  if m == 2 then (if leapYear y then 29 else 28)
  else if m == 4 || m == 6 || m == 9 || m == 11 then 30
  else 31

/-- The earliest year a calendar date may have. -/
def minYear : Int := -262143

/-- The latest year a calendar date may have. -/
def maxYear : Int := 262142

/-- The largest number a field may spell before it is refused as out of range. -/
def numberLimit : Nat := 9223372036854775807

/-- The span of year numbers the reader keeps at all; a signed year outside it is refused at
once, before the rest of the text is read. -/
def yearFieldMin : Int := -2147483648

/-- The upper end of the span of year numbers the reader keeps. -/
def yearFieldMax : Int := 2147483647

/-- Two digits. -/
def pad2 (n : Nat) : String := if n < 10 then "0" ++ toString n else toString n

/-- `n` with at least `w` digits. -/
def padTo (w n : Nat) : String :=
  let s := toString n
  String.ofList (List.replicate (w - s.length) '0') ++ s

/-- The RFC 3339 text of an instant, with `Z` and the shortest of no, 3, 6 or 9 fraction
digits that is exact. -/
def text (t : Timestamp) : String :=
  let (y, m, d) := civilOfDay t.day
  let hour := t.second / 3600
  let minute := t.second % 3600 / 60
  let (sec, nano) :=
    if t.nano ≥ 1000000000 then (t.second % 60 + 1, t.nano - 1000000000) else (t.second % 60, t.nano)
  let year :=
    if 0 ≤ y ∧ y ≤ 9999 then padTo 4 y.toNat
    else if y < 0 then "-" ++ padTo 4 y.natAbs else "+" ++ padTo 4 y.toNat
  let frac :=
    if nano == 0 then ""
    else if nano % 1000000 == 0 then "." ++ padTo 3 (nano / 1000000)
    else if nano % 1000 == 0 then "." ++ padTo 6 (nano / 1000)
    else "." ++ padTo 9 nano
  s!"{year}-{pad2 m}-{pad2 d}T{pad2 hour}:{pad2 minute}:{pad2 sec}{frac}Z"

/-- Leading blanks dropped. -/
def skipBlank (s : List Char) : List Char := s.dropWhile isBlank

/-- Up to `max` ASCII digits (at least one) and the rest. -/
def digits (s : List Char) (max : Nat) : Except TimeError (Nat × List Char) :=
  match s with
  | [] => .error .tooShort
  | c :: _ =>
    if !('0' ≤ c ∧ c ≤ '9') then .error .invalid
    else
      let ds := (s.take max).takeWhile fun c => '0' ≤ c ∧ c ≤ '9'
      .ok (ds.foldl (fun n c => n * 10 + (c.toNat - 48)) 0, s.drop ds.length)

/-- A literal separator character. -/
def literal (s : List Char) (c : Char) : Except TimeError (List Char) :=
  match s with
  | [] => .error .tooShort
  | d :: rest => if d = c then .ok rest else .error .invalid

/-- A number after blanks, checked to lie in `lo .. hi`. -/
def field (s : List Char) (width lo hi : Nat) : Except TimeError (Nat × List Char) := do
  let (v, rest) ← digits (skipBlank s) width
  if v < lo ∨ v > hi then .error .outOfRange else pure (v, rest)

/-- A signed year is kept only when its digits stay below `numberLimit` and the year lies in
`yearFieldMin .. yearFieldMax`. -/
def checkYear (v : Nat) (y : Int) : Except TimeError Int :=
  if v > numberLimit ∨ y < yearFieldMin ∨ y > yearFieldMax then .error .outOfRange else .ok y

/-- The year: four digits, or any number of digits after an explicit sign. -/
def year (s : List Char) : Except TimeError (Int × List Char) :=
  match skipBlank s with
  | '-' :: rest => do
    let (v, r) ← digits rest (rest.length + 1)
    let y ← checkYear v (-(v : Int))
    pure (y, r)
  | '+' :: rest => do
    let (v, r) ← digits rest (rest.length + 1)
    let y ← checkYear v (v : Int)
    pure (y, r)
  | other => do
    let (v, r) ← digits other 4
    pure ((v : Int), r)

/-- Whether a character is an ASCII digit. -/
def isDigit (c : Char) : Bool := '0' ≤ c ∧ c ≤ '9'

/-- The first two bytes of the UTF-8 text `s`, as far as they matter for a pair of digits:
`none` when the text is shorter than two bytes, otherwise the two characters when both are
ASCII (a character beyond ASCII stands for itself, since its bytes are never digits). -/
def firstTwo (s : List Char) : Option (Char × Char) :=
  match s with
  | [] => none
  | [c] => if c.toNat < 128 then none else some (c, c)
  | c :: d :: _ => some (c, d)

/-- An offset east of UTC in seconds: `Z`, `z`, or a sign, two hour digits, optional colons or
blanks, and two minute digits. -/
def offset (s : List Char) : Except TimeError (Int × List Char) :=
  match s with
  | 'Z' :: rest | 'z' :: rest => .ok (0, rest)
  | c :: rest =>
    let sign : Option Int :=
      if c = '+' then some 1 else if c = '-' ∨ c.toNat = 0x2212 then some (-1) else none
    match sign with
    | none => .error .invalid
    | some sign =>
      match firstTwo rest with
      | none => .error .tooShort
      | some (h1, h2) =>
        if !(isDigit h1 && isDigit h2) then .error .invalid
        else
          let hours := (h1.toNat - 48) * 10 + (h2.toNat - 48)
          let rest := (rest.drop 2).dropWhile fun c => c = ':' ∨ isBlank c
          match firstTwo rest with
          | none => .error .tooShort
          | some (m1, m2) =>
            if ('0' ≤ m1 ∧ m1 ≤ '5') ∧ isDigit m2 then
              let minutes := (m1.toNat - 48) * 10 + (m2.toNat - 48)
              .ok (sign * ((hours * 3600 + minutes * 60 : Nat) : Int), rest.drop 2)
            else if ('6' ≤ m1 ∧ m1 ≤ '9') ∧ isDigit m2 then .error .outOfRange
            else .error .invalid
  | [] => .error .tooShort

/-- A fraction of a second after the point: up to nine digits count, more are skipped. -/
def fraction (s : List Char) : Except TimeError (Nat × List Char) := do
  let (v, rest) ← digits s 9
  let used := s.length - rest.length
  let rest := rest.dropWhile fun c => '0' ≤ c ∧ c ≤ '9'
  pure (v * Nat.pow 10 (9 - used), rest)

/-- Reads an RFC 3339 timestamp leniently and converts it to UTC. -/
def parse (input : String) : Except TimeError Timestamp := do
  let s := input.toList
  let (y, s) ← year s
  let s ← literal (skipBlank s) '-'
  let (mo, s) ← field s 2 1 12
  let s ← literal (skipBlank s) '-'
  let (d, s) ← field s 2 1 31
  let s ← match s with
    | c :: rest => if c = 'T' ∨ c = 't' ∨ c = ' ' then pure rest else .error .invalid
    | [] => .error .tooShort
  let (h, s) ← field s 2 0 23
  let s ← literal (skipBlank s) ':'
  let (mi, s) ← field s 2 0 59
  let s ← literal (skipBlank s) ':'
  let (sec, s) ← field s 2 0 60
  let (nano, s) ← match s with
    | '.' :: rest => fraction rest
    | _ => pure (0, s)
  let s := skipBlank s
  let (off, s) ←
    match s with
    | a :: b :: c :: rest =>
      if a.toUpper = 'U' ∧ b.toUpper = 'T' ∧ c.toUpper = 'C' then pure (0, rest) else offset s
    | _ => offset s
  if !(skipBlank s).isEmpty then .error .tooLong
  if y < minYear ∨ y > maxYear then .error .outOfRange
  if d > monthLength y mo then .error .outOfRange
  if off.natAbs ≥ 86400 then .error .outOfRange
  let (sec, nano) := if sec == 60 then (59, nano + 1000000000) else (sec, nano)
  let total : Int := dayOfCivil y mo d * 86400 + (h * 3600 + mi * 60 + sec : Nat) - off
  let day := total / 86400
  let t : Timestamp := ⟨day, (total % 86400).toNat, nano⟩
  let (y', _, _) := civilOfDay day
  if y' < minYear ∨ y' > maxYear then .error .impossible
  pure t

end Timestamp

end OrgDeploy
