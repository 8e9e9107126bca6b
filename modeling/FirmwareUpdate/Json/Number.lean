import FirmwareUpdate.Decimal.Binary64
import FirmwareUpdate.Json.Token

/-!
# JSON numbers

A number without point and exponent that fits in 64 bits, signed or unsigned, is that integer. Every
other number is a double, and one without a double is out of range.

A double is read in two roundings: the leading digits that fit in 64 bits are rounded to a double,
which is then multiplied or divided by a power of ten.
-/

namespace FirmwareUpdate.Json

inductive Number where
  | int (i : Int)
  | real (x : Float)
  deriving Repr

namespace Numeral

def digitsValue (ds : List Nat) : Nat := ds.foldl (fun n d => 10 * n + d) 0

/-- The number spelled by decimal digits, capped at a limit. However many the digits, no number
beyond ten times the limit is computed. -/
def cappedValue (limit : Nat) (ds : List Nat) : Nat := ds.foldl (fun n d => min limit (10 * n + d)) 0

theorem foldl_capped (limit : Nat) (ds : List Nat) : ∀ n,
    ds.foldl (fun n d => min limit (10 * n + d)) (min limit n) =
      min limit (ds.foldl (fun n d => 10 * n + d) n) := by
  induction ds with
  | nil => intro n; rfl
  | cons d ds ih =>
    intro n
    have h : min limit (10 * min limit n + d) = min limit (10 * n + d) := by omega
    simp only [List.foldl_cons, h, ih]

theorem cappedValue_eq_min (limit : Nat) (ds : List Nat) :
    cappedValue limit ds = min limit (digitsValue ds) := by
  simpa [cappedValue, digitsValue] using foldl_capped limit ds 0

def integerLimit : Nat := 0x10000000000000000

/-- The integer that a number spells when it has neither point nor exponent and fits in 64 bits,
signed or unsigned; a negative zero is not an integer. -/
def integer? (n : Numeral) : Option Int :=
  if n.fraction.isEmpty && n.exponent.isNone then
    let v := cappedValue integerLimit n.whole
    if n.negative then (if 0 < v ∧ v ≤ 0x8000000000000000 then some (-v) else none)
    else if v < integerLimit then some v
    else none
  else none

def unsigned? (width : Nat) (n : Numeral) : Option Nat :=
  match n.integer? with
  | some i => if 0 ≤ i ∧ i.toNat < Nat.pow 2 width then some i.toNat else none
  | none => none

def signed? (n : Numeral) : Option Int :=
  match n.integer? with
  | some i => if i < 0x8000000000000000 then some i else none
  | none => none

structure Significand where
  value : Nat
  scale : Int

/-- One more digit before the point. After the first digit that does not fit, digits only scale. -/
def Significand.pushWhole (s : Significand) (d : Nat) : Significand :=
  if s.scale = 0 ∧ 10 * s.value + d < UInt64.size then ⟨10 * s.value + d, 0⟩ else ⟨s.value, s.scale + 1⟩

def Significand.pushFraction (s : Significand) : List Nat → Significand
  | [] => s
  | d :: ds =>
    if 10 * s.value + d < UInt64.size then pushFraction ⟨10 * s.value + d, s.scale - 1⟩ ds else s

def significand (n : Numeral) : Significand :=
  (n.whole.foldl Significand.pushWhole ⟨0, 0⟩).pushFraction n.fraction

/-- An exponent of this size takes a number out of the range of doubles or to zero, unless there are
about as many digits before it. -/
def powerLimit : Nat := 0x80000000

def power (n : Numeral) : Int :=
  match n.exponent with
  | some x =>
    let e := cappedValue powerLimit x.digits
    if x.negative then -(e : Int) else e
  | none => 0

def largestPower : Nat := 308

def scaleDown (x : Float) (e : Nat) : Float :=
  if e ≤ largestPower then x / Decimal.nearestDouble (Nat.pow 10 e)
  else if x == 0.0 then x
  else scaleDown (x / Decimal.nearestDouble (Nat.pow 10 largestPower)) (e - largestPower)
termination_by e
decreasing_by simp only [largestPower] at *; omega

/-- `x * 10 ^ e`, if that is a finite double. -/
def scaleUp? (x : Float) (e : Nat) : Option Float :=
  if e ≤ largestPower then
    let y := x * Decimal.nearestDouble (Nat.pow 10 e)
    if y.isInf then none else some y
  else if x == 0.0 then some x
  else none

def real? (n : Numeral) : Option Float :=
  let s := n.significand
  let e := s.scale + n.power
  let x := Decimal.nearestDouble s.value
  let magnitude := if 0 ≤ e then scaleUp? x e.toNat else some (scaleDown x (-e).toNat)
  magnitude.map fun x => if n.negative then -x else x

def number? (n : Numeral) : Option Number :=
  match n.integer? with
  | some i => some (.int i)
  | none => n.real?.map .real

end Numeral

end FirmwareUpdate.Json
