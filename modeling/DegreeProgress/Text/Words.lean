import DegreeProgress.Text.Blank

/-!
# Words and letters

A text read as its blank-separated words, ASCII letter case, and the bytes of a text.
-/

namespace DegreeProgress

/-- the word that a text starts with (empty at a blank), and the words after it -/
def leadingWord : List Char → List Char × List (List Char)
  | [] => ([], [])
  | c :: cs =>
    let (word, later) := leadingWord cs
    if isBlank c then ([], if word.isEmpty then later else word :: later) else (c :: word, later)

/-- the blank-separated words of a text, none of them empty -/
def wordsOf (cs : List Char) : List (List Char) :=
  let (word, later) := leadingWord cs
  if word.isEmpty then later else word :: later

def words (s : String) : List String := (wordsOf s.toList).map String.ofList

/-! ### ASCII letters and digits -/

/-- upper case for the 26 ASCII letters, other characters unchanged -/
def upperAscii (s : String) : String := String.ofList (s.toList.map Char.toUpper)

/-- equal up to the case of ASCII letters -/
def eqIgnoringCase (s t : String) : Bool :=
  s.toList.map Char.toUpper == t.toList.map Char.toUpper

/-- the value of a run of decimal digits -/
def digitsValue (cs : List Char) : Nat :=
  cs.foldl (fun n c => 10 * n + (c.toNat - '0'.toNat)) 0

/-! ### bytes -/

/-- the UTF-8 bytes of a text -/
def utf8Bytes (s : String) : List UInt8 := s.toList.flatMap String.utf8EncodeChar

/-- how many UTF-8 bytes a run of characters takes -/
def utf8Length : List Char → Nat
  | [] => 0
  | c :: cs => c.utf8Size + utf8Length cs

end DegreeProgress
