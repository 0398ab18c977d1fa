import DegreeProgress.Decimal.Shortest
import DegreeProgress.Text.Words

/-!
# Written numbers

Numbers as they are written, and ways to turn one into floating point: the nearest number of 64
bits or of 32, and one scaling of a 64-bit integer by a power of ten, which may miss the nearest
number by a little where the digits do not fit.
-/

namespace DegreeProgress

/-- the parts of a written number: `-` or not, the digits before and after the point, and the
exponent -/
structure NumberLiteral where
  negative : Bool
  whole : List Char
  fraction : Option (List Char)
  exponent : Option Int

namespace NumberLiteral

/-- written without a point and without an exponent -/
def isWhole (n : NumberLiteral) : Bool := n.fraction.isNone && n.exponent.isNone

def magnitude (n : NumberLiteral) : Nat := digitsValue n.whole

def signed (n : NumberLiteral) (x : Float) : Float := if n.negative then -x else x

/-! ### the nearest number -/

/-- the nearest floating-point number to `m * 10^e` -/
def nearest (m : Nat) (e : Int) : Float :=
  let size : Int := (Nat.toDigits 10 m).length
  if m = 0 || size + e < -330 then 0.0
  else if 330 < size + e then Float.ofBits 0x7FF0000000000000
  else Float.ofScientific m (e < 0) e.natAbs

/-- the digits as one whole number -/
def mantissa (n : NumberLiteral) : Nat := digitsValue (n.whole ++ n.fraction.getD [])

/-- the power of ten that the mantissa is multiplied by -/
def scale (n : NumberLiteral) : Int := n.exponent.getD 0 - (n.fraction.getD []).length

def toNearest (n : NumberLiteral) : Float := n.signed (nearest n.mantissa n.scale)

/-- the nearest of the numbers that 32 bits hold to `m * 10^e` -/
def nearestSingle (m : Nat) (e : Int) : Float :=
  let size : Int := (Nat.toDigits 10 m).length
  if m = 0 || size + e < -50 then 0.0
  else if 50 < size + e then Float.ofBits 0x7FF0000000000000
  else (Float32.ofScientific m (e < 0) e.natAbs).toFloat

def toNearestSingle (n : NumberLiteral) : Float := n.signed (nearestSingle n.mantissa n.scale)

/-! ### one scaling -/

/-- the digits that fit into 64 bits from a given start, and how many do not fit -/
def packDigits (start : Nat) : List Char → Nat × Nat
  | [] => (start, 0)
  | c :: cs =>
    let next := 10 * start + (c.toNat - '0'.toNat)
    if UInt64.size ≤ next then (start, cs.length + 1) else packDigits next cs

/-- the power of ten with an exponent up to 308 -/
def powerOfTen (n : Nat) : Float := Float.ofScientific 1 false n

/-- `x * 10^e` with one multiplication or division, or several where `e` is below -308; nothing
where the product is infinite -/
def scale? (x : Float) (e : Int) : Option Float :=
  if e < -308 then
    if x == 0.0 then some x else scale? (x / powerOfTen 308) (e + 308)
  else if e < 0 then some (x / powerOfTen e.natAbs)
  else if 308 < e then if x == 0.0 then some x else none
  else
    let y := x * powerOfTen e.toNat
    if y.isInf then none else some y
termination_by e.natAbs
decreasing_by omega

def toScaled? (n : NumberLiteral) : Option Float :=
  let (packed, left) := packDigits 0 n.whole
  let fraction := n.fraction.getD []
  let (packed, cut) := packDigits packed fraction
  let exponent := n.exponent.getD 0 + left - ((fraction.length - cut : Nat) : Int)
  (scale? (Float.ofNat packed) exponent).map n.signed

end NumberLiteral

end DegreeProgress
