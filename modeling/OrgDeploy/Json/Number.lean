import OrgDeploy.Decimal.Shortest

/-!
# JSON numbers

A JSON number is kept as one of three kinds, and the kind is part of the value: `1` and `1.0` are
different numbers.

* `nat n`: an integer `0 ≤ n < 2 ^ 64`.
* `negInt i`: an integer `-2 ^ 63 ≤ i < 0`.
* `float f`: every other number, as a finite double.

`Number.text` writes a number: integers in plain decimal, doubles by `floatText`, whose layout is
the record `Number.floatLayout` on top of `Binary.shortest`.

Source: numbers as serde_json reads and writes them in templates and state.
-/

namespace OrgDeploy.Json

open OrgDeploy.Decimal

/-- A JSON number, by kind. -/
inductive Number where
  | nat (n : Nat)
  | negInt (i : Int)
  | float (f : Float)

/-- Where a double is written without an exponent, and how its exponent looks otherwise. -/
structure FloatLayout where
  /-- Positional notation is used for `10 ^ (minPoint - 1) ≤ |x| < 10 ^ maxPoint`. -/
  minPoint : Int
  maxPoint : Int
  /-- The mark between mantissa and exponent. -/
  mark : String
  /-- Whether a non-negative exponent carries a `+`. -/
  plusSign : Bool

/-- Doubles are positional from `1e-5` up to below `1e16`, always with a fractional part
(`100.0`), and otherwise written `d.ddde±x` with the exponent unpadded (`1e+16`, `1e-7`). -/
def Number.floatLayout : FloatLayout := ⟨-4, 16, "e", true⟩

/-- `n` zeros. -/
def zeros (n : Nat) : String := String.ofList (List.replicate n '0')

/-- Writes the decimal `digits · 10 ^ e` (no sign) in the layout `l`. -/
def FloatLayout.place (l : FloatLayout) (digits : Nat) (e : Int) : String :=
  let ds := toString digits
  let n : Int := ds.length
  let point := n + e
  if 0 ≤ e ∧ point ≤ l.maxPoint then
    ds ++ zeros e.toNat ++ ".0"
  else if 0 < point ∧ point ≤ l.maxPoint then
    String.ofList (ds.toList.take point.toNat) ++ "." ++ String.ofList (ds.toList.drop point.toNat)
  else if l.minPoint ≤ point ∧ point ≤ 0 then
    "0." ++ zeros (-point).toNat ++ ds
  else
    let exp := point - 1
    let mantissa :=
      match ds.toList with
      | d :: rest@(_ :: _) => String.ofList (d :: '.' :: rest)
      | other => String.ofList other
    let sign := if exp < 0 then "-" else if l.plusSign then "+" else ""
    mantissa ++ l.mark ++ sign ++ toString exp.natAbs

/-- The text of a finite double: shortest digits that read back, in `Number.floatLayout`. Zero
keeps its sign (`-0.0`). -/
def floatText (f : Float) : String :=
  let bits := f.toBits
  let sign := if bits >>> 63 == 1 then "-" else ""
  if bits &&& 0x7FFFFFFFFFFFFFFF == 0 then sign ++ "0.0"
  else
    let (d, e) := (Binary.ofBits bits).shortest
    sign ++ Number.floatLayout.place d e

/-- The text of a number. -/
def Number.text : Number → String
  | .nat n => toString n
  | .negInt i => toString i
  | .float f => floatText f

/-- How a number is named when it has the wrong type for a field. -/
def Number.unexpected : Number → String
  | .nat n => s!"integer `{n}`"
  | .negInt i => s!"integer `{i}`"
  | .float f => s!"floating point `{floatText f}`"

/-- The largest integer of the `nat` kind, `2 ^ 64 - 1`. -/
def Number.natLimit : Nat := 18446744073709551615

end OrgDeploy.Json
