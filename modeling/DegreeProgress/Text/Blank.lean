/-!
# Blank characters

The characters with the Unicode property White_Space, and trimming by them.
-/

namespace DegreeProgress

/-- the ranges of White_Space, both ends included -/
def blankRanges : List (Nat × Nat) :=
  [(0x9, 0xD), (0x20, 0x20), (0x85, 0x85), (0xA0, 0xA0), (0x1680, 0x1680), (0x2000, 0x200A),
   (0x2028, 0x2029), (0x202F, 0x202F), (0x205F, 0x205F), (0x3000, 0x3000)]

def isBlank (c : Char) : Bool :=
  blankRanges.any fun r => r.1 ≤ c.toNat && c.toNat ≤ r.2

/-- a text without the blanks at its start -/
def dropBlanks (cs : List Char) : List Char := cs.dropWhile isBlank

/-- a text without the blanks at both ends -/
def trimBlanks (cs : List Char) : List Char :=
  (dropBlanks (dropBlanks cs).reverse).reverse

/-- a text without the blanks at both ends -/
def trimmed (s : String) : String := String.ofList (trimBlanks s.toList)

/-- nothing but blanks -/
def isAllBlank (s : String) : Bool := s.toList.all isBlank

end DegreeProgress
