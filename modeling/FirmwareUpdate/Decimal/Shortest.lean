import FirmwareUpdate.Decimal.Binary64

/-!
# The shortest decimal that reads back

Of the decimals that round to a given double, the one with the fewest digits is written, and of
those the nearest. A decimal with `n` digits is a point of a grid, and if any point of that grid
rounds to the double then so does one of the two grid points next to it.
-/

namespace FirmwareUpdate.Decimal

structure Scaled where
  digits : Nat
  exponent : Int
  deriving DecidableEq

structure Ratio where
  num : Nat
  den : Nat

namespace Ratio

def ofBinary (n : Nat) (q : Int) : Ratio :=
  if 0 ≤ q then ⟨n * Nat.pow 2 q.toNat, 1⟩ else ⟨n, Nat.pow 2 (-q).toNat⟩

def overPowerOfTen (r : Ratio) (e : Int) : Ratio :=
  if 0 ≤ e then ⟨r.num, r.den * Nat.pow 10 e.toNat⟩ else ⟨r.num * Nat.pow 10 (-e).toNat, r.den⟩

def lt (r s : Ratio) : Bool := decide (r.num * s.den < s.num * r.den)

def le (r s : Ratio) : Bool := decide (r.num * s.den ≤ s.num * r.den)

end Ratio

/-- The decimals that round to a positive double, in quarters of its last place. -/
structure Interval where
  low : Ratio
  value : Ratio
  high : Ratio
  closed : Bool

namespace Interval

def ofBinary (b : Binary) : Interval where
  low := Ratio.ofBinary (4 * b.mantissa - if b.atPowerOfTwo then 1 else 2) (b.exponent - 2)
  value := Ratio.ofBinary (4 * b.mantissa) (b.exponent - 2)
  high := Ratio.ofBinary (4 * b.mantissa + 2) (b.exponent - 2)
  closed := b.mantissa % 2 == 0

def contains (i : Interval) (d : Nat) (e : Int) : Bool :=
  let point : Ratio := ⟨d, 1⟩
  let low := i.low.overPowerOfTen e
  let high := i.high.overPowerOfTen e
  if i.closed then low.le point && point.le high else low.lt point && point.lt high

/-- The least `p` with the value below `10 ^ p`. The logarithm gives it up to one. -/
def magnitude (i : Interval) : Int :=
  let guess : Int :=
    (((i.value.num.log2 : Int) - (i.value.den.log2 : Int)) * 30103) / 100000
  let below (p : Int) : Bool := (i.value.overPowerOfTen p).lt ⟨1, 1⟩
  ([guess - 1, guess, guess + 1].find? below).getD (guess + 2)

/-- The point of the grid of step `10 ^ e` that stands for the double, if one does: the nearer of
the value's two neighbours, the even one if both are equally near. -/
def onGrid (i : Interval) (e : Int) : Option Scaled :=
  let v := i.value.overPowerOfTen e
  let d := v.num / v.den
  let twiceRest := 2 * (v.num % v.den)
  match i.contains d e, i.contains (d + 1) e with
  | false, false => none
  | true, false => some ⟨d, e⟩
  | false, true => some ⟨d + 1, e⟩
  | true, true =>
    if twiceRest < v.den || (twiceRest == v.den && d % 2 == 0) then some ⟨d, e⟩
    else some ⟨d + 1, e⟩

end Interval

/-- The shortest decimal of a positive double. Seventeen digits always suffice. -/
def shortest (b : Binary) : Scaled :=
  let i := Interval.ofBinary b
  let p := i.magnitude
  ((List.range 17).findSome? fun (n : Nat) => i.onGrid (p - (n + 1))).getD ⟨0, 0⟩

end FirmwareUpdate.Decimal
