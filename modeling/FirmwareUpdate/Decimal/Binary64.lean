/-!
# Double-precision numbers as whole mantissas

A finite double is `mantissa * 2 ^ exponent`. Exact arithmetic on the two parts decides how a number
is rounded and which decimals denote it.
-/

namespace FirmwareUpdate.Decimal

structure Binary where
  mantissa : Nat
  exponent : Int
  deriving DecidableEq

namespace Binary

/-- The leading bit of a full mantissa, `2 ^ 52`. It is not stored. -/
def leadingBit : Nat := 0x10000000000000

def ofBits (bits : UInt64) : Binary :=
  let field : Nat := (bits.toNat / leadingBit) % 2048
  let fraction : Nat := bits.toNat % leadingBit
  if field = 0 then ⟨fraction, -1074⟩ else ⟨leadingBit + fraction, (field : Int) - 1075⟩

def atPowerOfTwo (b : Binary) : Bool := b.mantissa = leadingBit && decide (-1074 < b.exponent)

def assemble (top mantissa : Nat) : Float :=
  Float.ofBits (UInt64.ofNat ((top + 1023) * leadingBit + (mantissa - leadingBit)))

end Binary

/-- The double nearest to a whole number that is no larger than the largest double; halfway goes to
the even mantissa. -/
def nearestDouble (n : Nat) : Float :=
  if n = 0 then 0.0
  else
    let top := n.log2
    if top ≤ 52 then Binary.assemble top (n * Nat.pow 2 (52 - top))
    else
      let unit := Nat.pow 2 (top - 52)
      let m := n / unit
      let rest := n % unit
      let up := decide (unit < 2 * rest) || (decide (unit = 2 * rest) && m % 2 == 1)
      Binary.assemble top (if up then m + 1 else m)

end FirmwareUpdate.Decimal
