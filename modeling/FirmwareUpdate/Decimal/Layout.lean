import FirmwareUpdate.Decimal.Shortest

/-!
# How a decimal is laid out

A `Layout` holds a format's own decisions: where positional writing ends and how an exponent is
written. The digits come from `Decimal.shortest`.
-/

namespace FirmwareUpdate.Decimal

structure Layout where
  /-- Positional writing ends below this place of the point, counted from the first digit. -/
  leastPoint : Int
  mostPoint : Int
  wholeTail : String
  mark : String

def trimZeros (s : Scaled) : List Char :=
  ((Nat.toDigits 10 s.digits).reverse.dropWhile (· == '0')).reverse

namespace Layout

/-- The digits with the point after `point` of them. -/
def positional (l : Layout) (digits : List Char) (point : Int) : String :=
  if point ≤ 0 then
    String.ofList ('0' :: '.' :: List.replicate (-point).toNat '0' ++ digits)
  else
    let whole := digits.take point.toNat
    let fraction := digits.drop point.toNat
    let padded := whole ++ List.replicate (point.toNat - digits.length) '0'
    if fraction.isEmpty then String.ofList padded ++ l.wholeTail
    else String.ofList (padded ++ '.' :: fraction)

def scientific (l : Layout) (digits : List Char) (point : Int) : String :=
  let head := digits.take 1
  let tail := digits.drop 1
  let mantissa := if tail.isEmpty then head else head ++ '.' :: tail
  String.ofList mantissa ++ l.mark ++ toString (point - 1)

def render (l : Layout) (x : Float) : String :=
  let bits := x.toBits
  let b := Binary.ofBits bits
  let sign := if bits.toNat < 0x8000000000000000 then "" else "-"
  if b.mantissa = 0 then sign ++ "0" ++ l.wholeTail
  else
    let s := shortest b
    let digits := trimZeros s
    let point := (Nat.toDigits 10 s.digits).length + s.exponent
    if l.leastPoint ≤ point && point ≤ l.mostPoint then sign ++ l.positional digits point
    else sign ++ l.scientific digits point

end Layout

end FirmwareUpdate.Decimal
