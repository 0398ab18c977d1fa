import DegreeProgress.Text.Words

/-!
# Readers

What the readers of the document formats share: a reader takes something from the front of a text
and leaves the rest.
-/

namespace DegreeProgress

/-- reads an `α` from the front of a text -/
abbrev Reading (α : Type) : Type := List Char → Option (α × List Char)

/-- the longest run of characters of a class, and the rest -/
def spanOf (p : Char → Bool) (cs : List Char) : List Char × List Char :=
  (cs.takeWhile p, cs.dropWhile p)

def spanDigits (cs : List Char) : List Char × List Char := spanOf Char.isDigit cs

/-- skips a given text -/
def skipText? (text : String) (cs : List Char) : Option (List Char) :=
  if text.toList.isPrefixOf cs then some (cs.drop text.length) else none

/-- the largest magnitude of a negative integer within 64 bits -/
def maxNegative : Nat := 9223372036854775808

/-! ### digits of other bases -/

def hexValue? (c : Char) : Option Nat :=
  if c.isDigit then some (c.toNat - '0'.toNat)
  else if 'a' ≤ c ∧ c ≤ 'f' then some (c.toNat - 'a'.toNat + 10)
  else if 'A' ≤ c ∧ c ≤ 'F' then some (c.toNat - 'A'.toNat + 10)
  else none

/-- whether a character is a digit of a base up to 16 -/
def isDigitOf (base : Nat) (c : Char) : Bool := (hexValue? c).any (· < base)

/-- the value of a run of digits of a base up to 16 -/
def digitsValueIn (base : Nat) (cs : List Char) : Nat :=
  cs.foldl (fun n c => base * n + (hexValue? c).getD 0) 0

/-- the character with a code point -/
def charOf? (n : Nat) : Option Char :=
  if n < 0xD800 ∨ (0xDFFF < n ∧ n < 0x110000) then some (Char.ofNat n) else none

/-- the character whose code point is given in hexadecimal digits -/
def charOfHex? (cs : List Char) : Option Char :=
  if cs.all (isDigitOf 16) then charOf? (digitsValueIn 16 cs) else none

end DegreeProgress
