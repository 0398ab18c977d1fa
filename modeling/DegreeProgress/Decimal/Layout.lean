import DegreeProgress.Decimal.Shortest

/-!
# Written amounts

How a number is laid out as text, with one layout for data documents and one for plain text.
-/

namespace DegreeProgress

/-- how a decimal is laid out; `lead` is the exponent of its first digit -/
structure AmountLayout where
  tie : Decimal.Tie
  /-- the exponents `lead` that are written without an exponent mark -/
  isPlain : (lead : Int) → Bool
  /-- whether a whole number ends in `.0` -/
  pointZero : Bool
  nan : String
  infinity : String
  minusInfinity : String

namespace AmountLayout

/-- a data document: an exponent mark from `1e+16` up and from `1e-6` down, `.0` after whole
numbers, and nothing for a number that is not finite -/
def data : AmountLayout where
  tie := .even
  isPlain lead := -5 ≤ lead && lead < 16
  pointZero := true
  nan := "null"
  infinity := "null"
  minusInfinity := "null"

/-- plain text: never an exponent mark and no `.0` -/
def text : AmountLayout where
  tie := .up
  isPlain _ := true
  pointZero := false
  nan := "NaN"
  infinity := "inf"
  minusInfinity := "-inf"

def zeros (n : Nat) : List Char := List.replicate n '0'

/-- the digits with the point where `exponent` puts it -/
def plain (l : AmountLayout) (digits : List Char) (exponent : Int) : List Char :=
  if 0 ≤ exponent then
    digits ++ zeros exponent.toNat ++ if l.pointZero then ['.', '0'] else []
  else
    let places := (-exponent).toNat
    if places < digits.length then
      digits.take (digits.length - places) ++ '.' :: digits.drop (digits.length - places)
    else '0' :: '.' :: zeros (places - digits.length) ++ digits

/-- one digit before the point, and the exponent with its sign -/
def marked (digits : List Char) (lead : Int) : List Char :=
  let mantissa := match digits with
    | [] => []
    | [d] => [d]
    | d :: ds => d :: '.' :: ds
  let sign := if lead < 0 then '-' else '+'
  mantissa ++ 'e' :: sign :: (toString lead.natAbs).toList

def magnitude (l : AmountLayout) (m : Nat) (q : Int) (narrow : Bool) : List Char :=
  let d := if m = 0 then ⟨0, 0⟩ else Decimal.shortest l.tie m q narrow
  let digits := (toString d.digits).toList
  let lead := d.exponent + digits.length - 1
  if l.isPlain lead then l.plain digits d.exponent else marked digits lead

def write (l : AmountLayout) (x : Float) : String :=
  match unpack x with
  | .nan => l.nan
  | .infinite negative => if negative then l.minusInfinity else l.infinity
  | .finite negative m q narrow =>
    let body := l.magnitude m q narrow
    String.ofList (if negative then '-' :: body else body)

end AmountLayout

end DegreeProgress
