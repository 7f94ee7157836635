/-!
# Shortest decimal digits of a double

A finite nonzero double `x` is read back from every decimal inside its rounding interval: the
reals nearer to `x` than to either neighbouring double, the two ends included exactly when the
mantissa of `x` is even. `Binary.shortest` returns the decimal `digits · 10 ^ exponent` with the
fewest significant digits inside that interval and, among those, the one nearest to `x`; an exact
tie goes to the even digit string.

All comparisons are made in exact `Nat` arithmetic on `mantissa · 2 ^ exponent`, so nothing here
depends on floating-point operations: the double enters only through its bit pattern.

* `Binary.ofBits` splits the 64 bits into mantissa and binary exponent.
* `Binary.decimalExponent` is `⌊log₁₀ x⌋`.
* `Binary.atPrecision` tries the two decimals of a given digit count that enclose `x`.

Source: numbers as serde_json reads and writes them in templates and state, and as
`orgform-render/src/coerce.rs:1-55` turns them into text.
-/

namespace OrgDeploy.Decimal

/-- A finite nonzero double without its sign: the value `mantissa · 2 ^ exponent`. The gap to the
next smaller double is half the gap to the next larger one exactly when `narrowBelow` holds
(the mantissa is a power of two and the exponent is above the least normal one). -/
structure Binary where
  mantissa : Nat
  exponent : Int
  narrowBelow : Bool
  deriving Repr, DecidableEq

/-- Splits the bit pattern of a double into mantissa and binary exponent; the sign bit is ignored,
and so is whether the pattern is zero, infinite or not a number. -/
def Binary.ofBits (bits : UInt64) : Binary :=
  let frac := (bits &&& 0xFFFFFFFFFFFFF).toNat
  let biased := ((bits >>> 52) &&& 0x7FF).toNat
  if biased = 0 then
    ⟨frac, -1074, false⟩
  else
    ⟨frac + Nat.pow 2 52, (biased : Int) - 1075, frac == 0 && decide (biased > 1)⟩

/-- Compares `a · 2 ^ a2 · 10 ^ a10` with `b · 2 ^ b2 · 10 ^ b10` exactly, by moving every
negative power to the other side. -/
def cmpScaled (a : Nat) (a2 a10 : Int) (b : Nat) (b2 b10 : Int) : Ordering :=
  let d2 := a2 - b2
  let d10 := a10 - b10
  compare (a * Nat.pow 2 d2.toNat * Nat.pow 10 d10.toNat)
    (b * Nat.pow 2 (-d2).toNat * Nat.pow 10 (-d10).toNat)

namespace Binary

/-- `⌊log₁₀ x⌋`. The estimate `⌊log₁₀ 2 · ⌊log₂ x⌋⌋` (with `log₁₀ 2` as `78913 / 2^18`) is off by
at most one, and one comparison on each side corrects it. -/
def decimalExponent (x : Binary) : Int :=
  let log2 : Int := (Nat.log2 x.mantissa : Int) + x.exponent
  let est : Int := (log2 * 78913) / 262144
  if cmpScaled 1 0 (est + 1) x.mantissa x.exponent 0 != .gt then est + 1
  else if cmpScaled 1 0 est x.mantissa x.exponent 0 == .gt then est - 1
  else est

/-- `⌊x / 10 ^ e⌋`. -/
def floorScaled (x : Binary) (e : Int) : Nat :=
  (x.mantissa * Nat.pow 2 x.exponent.toNat * Nat.pow 10 (-e).toNat) /
    (Nat.pow 2 (-x.exponent).toNat * Nat.pow 10 e.toNat)

/-- Whether `d · 10 ^ e` reads back as `x`: it lies in the rounding interval of `x`, whose ends
count only for an even mantissa. In units of `2 ^ (exponent - 2)` the interval runs from
`4m - 2` (or `4m - 1` when the gap below is narrow) to `4m + 2`. -/
def readsBack (x : Binary) (d : Nat) (e : Int) : Bool :=
  let m := x.mantissa
  let low := if x.narrowBelow then 4 * m - 1 else 4 * m - 2
  let high := 4 * m + 2
  let q := x.exponent - 2
  let aboveLow := cmpScaled d 0 e low q 0
  let belowHigh := cmpScaled d 0 e high q 0
  if m % 2 == 0 then aboveLow != .lt && belowHigh != .gt
  else aboveLow == .gt && belowHigh == .lt

/-- The decimal of `p` significant digits that reads back as `x`, if there is one: of the two
decimals on that grid enclosing `x`, the one that reads back, or the nearer if both do (an exact
tie goes to the even one). -/
def atPrecision (x : Binary) (k : Int) (p : Nat) : Option (Nat × Int) :=
  let e := k - p + 1
  let lo := x.floorScaled e
  let hi := lo + 1
  match x.readsBack lo e, x.readsBack hi e with
  | true, true =>
    -- compare 2x with (2 lo + 1) · 10^e
    match cmpScaled (2 * x.mantissa) x.exponent 0 (2 * lo + 1) 0 e with
    | .lt => some (lo, e)
    | .gt => some (hi, e)
    | .eq => if lo % 2 == 0 then some (lo, e) else some (hi, e)
  | true, false => some (lo, e)
  | false, true => some (hi, e)
  | false, false => none

/-- Drops trailing zero digits, raising the exponent for each. -/
def trimZeros : Nat → Nat × Int → Nat × Int
  | 0, r => r
  | fuel + 1, (d, e) => if d != 0 && d % 10 == 0 then trimZeros fuel (d / 10, e + 1) else (d, e)

/-- The shortest decimal `(digits, exponent)` that reads back as `x`, nearest among the shortest.
Seventeen significant digits always suffice for a double. -/
def shortest (x : Binary) : Nat × Int :=
  let k := x.decimalExponent
  let found := (List.range 17).findSome? fun i => x.atPrecision k (i + 1)
  trimZeros 20 (found.getD (x.floorScaled (k - 16), k - 16))

end Binary

end OrgDeploy.Decimal
