import DegreeProgress.Decimal.Literal
import DegreeProgress.Document.Basic
import DegreeProgress.Document.Toml.Moment

/-!
# TOML numbers and words

The values without quotes and brackets: truth values, numbers, dates and times.  A number that 64
bits do not hold is malformed.
-/

namespace DegreeProgress.Toml

/-- digits without the underscores between them -/
def ungrouped (isDigit : Char → Bool) (afterDigit : Bool) : List Char → Option (List Char)
  | [] => if afterDigit then some [] else none
  | c :: cs =>
    if isDigit c then (ungrouped isDigit true cs).map (c :: ·)
    else if c == '_' && afterDigit then ungrouped isDigit false cs
    else none

def decimalDigits? (cs : List Char) : Option (List Char) := ungrouped Char.isDigit false cs

/-- an integer within 64 bits -/
def integer (n : Int) : Document :=
  if -(maxNegative : Int) ≤ n ∧ n < UInt64.size then .integer n else .malformed

def based? (base : Nat) (cs : List Char) : Option Document :=
  (ungrouped (isDigitOf base) false cs).map fun ds => integer (digitsValueIn base ds)

/-- the digits of a whole number, which no zero leads -/
def wholeDigits? (cs : List Char) : Option (List Char) :=
  (decimalDigits? cs).filter fun ds => ds.head? != some '0' || ds.length == 1

def exponent? : List Char → Option Int
  | '-' :: cs => (decimalDigits? cs).map fun ds => -(digitsValue ds : Int)
  | '+' :: cs => (decimalDigits? cs).map fun ds => (digitsValue ds : Int)
  | cs => (decimalDigits? cs).map fun ds => (digitsValue ds : Int)

/-- a number with a point or an exponent, within 64 bits -/
def real (n : NumberLiteral) : Document :=
  let x := n.toNearest
  if x.isInf then .malformed else .real x

def isExponentMark (c : Char) : Bool := c == 'e' || c == 'E'

/-- a number without its sign -/
def number? (negative : Bool) (cs : List Char) : Option Document := do
  let (whole, rest) := spanOf (fun c => c != '.' && !isExponentMark c) cs
  let whole ← wholeDigits? whole
  match rest with
  | [] =>
    let n : Int := digitsValue whole
    return integer (if negative then -n else n)
  | '.' :: rest =>
    let (fraction, rest) := spanOf (!isExponentMark ·) rest
    let fraction ← decimalDigits? fraction
    match rest with
    | [] => return real ⟨negative, whole, some fraction, none⟩
    | _ :: rest => return real ⟨negative, whole, some fraction, some (← exponent? rest)⟩
  | _ :: rest => return real ⟨negative, whole, none, some (← exponent? rest)⟩

def signed? (negative : Bool) (cs : List Char) : Option Document :=
  if cs == "inf".toList then some (.real (if negative then -(1.0 / 0.0) else 1.0 / 0.0))
  else if cs == "nan".toList then some (.real (0.0 / 0.0))
  else number? negative cs

/-- a value without quotes and brackets -/
def word? (cs : List Char) : Option Document :=
  if cs == "true".toList then some (.bool true)
  else if cs == "false".toList then some (.bool false)
  else if Moment.startsMoment cs then if Moment.isMoment cs then some .foreign else none
  else match cs with
    | '0' :: 'x' :: ds => based? 16 ds
    | '0' :: 'o' :: ds => based? 8 ds
    | '0' :: 'b' :: ds => based? 2 ds
    | '+' :: ds => signed? false ds
    | '-' :: ds => signed? true ds
    | ds => signed? false ds

def isWordChar (c : Char) : Bool :=
  c.isAlphanum || c == '_' || c == '+' || c == '-' || c == '.' || c == ':'

/-- reads a word; between a date and a time one blank belongs to it -/
def word : Reading Document := fun cs =>
  let (first, rest) := spanOf isWordChar cs
  match rest with
  | ' ' :: d :: more =>
    if Moment.isDate first && d.isDigit then
      let (second, rest) := spanOf isWordChar (d :: more)
      (word? (first ++ ' ' :: second)).map (·, rest)
    else (word? first).map (·, rest)
  | rest => (word? first).map (·, rest)

end DegreeProgress.Toml
