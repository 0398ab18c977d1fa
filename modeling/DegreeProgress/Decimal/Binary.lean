/-!
# Binary fractions

What a 64-bit floating-point number stands for: a sign and a binary fraction `m * 2^q`.
-/

namespace DegreeProgress

inductive Unpacked where
  | nan
  | infinite (negative : Bool)
  /-- the fraction `m * 2^q`; `narrow` when the next number below is only half a step away -/
  | finite (negative : Bool) (m : Nat) (q : Int) (narrow : Bool)
  deriving DecidableEq, Repr

/-- the weight of the sign bit -/
def signWeight : Nat := 9223372036854775808

/-- how many fractions belong to one exponent -/
def fractionCount : Nat := 4503599627370496

/-- how many exponents there are -/
def exponentCount : Nat := 2048

def unpack (x : Float) : Unpacked :=
  let bits : Nat := x.toBits.toNat
  let negative := signWeight ≤ bits
  let exponent : Nat := bits / fractionCount % exponentCount
  let fraction := bits % fractionCount
  if exponent = 2047 then
    if fraction = 0 then .infinite negative else .nan
  else if exponent = 0 then .finite negative fraction (-1074) false
  else .finite negative (fractionCount + fraction) ((exponent : Int) - 1075) (fraction = 0 && 1 < exponent)

/-- neither infinite nor NaN -/
def isFinite (x : Float) : Bool :=
  match unpack x with
  | .finite .. => true
  | _ => false

/-- finite and not below zero; minus zero is not below zero -/
def isFiniteNonneg (x : Float) : Bool :=
  match unpack x with
  | .finite negative m _ _ => !negative || m == 0
  | _ => false

/-- finite and above zero -/
def isFinitePositive (x : Float) : Bool :=
  match unpack x with
  | .finite negative m _ _ => !negative && m != 0
  | _ => false

/-- the exact value; an infinite number or NaN has none, and zero stands in -/
def exactValue (x : Float) : Rat :=
  match unpack x with
  | .finite negative m q _ => (if negative then -1 else 1) * (m : Rat) * (2 : Rat) ^ q
  | _ => 0

/-- the place of a number in the total order of all bit patterns, where minus zero comes just
before zero -/
def orderKey (x : Float) : Int :=
  let bits := x.toBits.toNat
  if bits < signWeight then bits else -((bits - signWeight : Nat) : Int) - 1

end DegreeProgress
