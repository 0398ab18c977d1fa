import DegreeProgress.Text.Words

/-!
# Reading positions

A place in a text: how many bytes lie before it and which characters come after it.  Every step
moves over whole characters, so a position never falls inside one.
-/

namespace DegreeProgress

structure Cursor where
  /-- the bytes already read -/
  offset : Nat
  rest : List Char

namespace Cursor

def start (s : String) : Cursor := ⟨0, s.toList⟩

/-- moves over the next `n` characters -/
def advance (c : Cursor) (n : Nat) : Cursor :=
  ⟨c.offset + utf8Length (c.rest.take n), c.rest.drop n⟩

/-- reads the longest run of characters of a class -/
def span (p : Char → Bool) (c : Cursor) : List Char × Cursor :=
  (c.rest.takeWhile p, ⟨c.offset + utf8Length (c.rest.takeWhile p), c.rest.dropWhile p⟩)

/-- the blanks that may stand between tokens -/
def isGap (c : Char) : Bool :=
  c == ' ' || c == '\t' || c == '\n' || c == '\x0c' || c == '\r'

def skipGap (c : Cursor) : Cursor := (c.span isGap).2

/-- reads `token` after any gap, when it comes next -/
def eat? (token : String) (c : Cursor) : Option Cursor :=
  let c := c.skipGap
  if token.toList.isPrefixOf c.rest then some (c.advance token.length) else none

end Cursor

end DegreeProgress
