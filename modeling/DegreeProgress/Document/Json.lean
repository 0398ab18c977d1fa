import DegreeProgress.Decimal.Literal
import DegreeProgress.Document.Basic
import DegreeProgress.Document.Reading

/-!
# Reading JSON

A whole number within 64 bits is an integer and any other number a real.  A number out of range, a
text with half a surrogate pair and anything in more than 127 brackets is malformed.
-/

namespace DegreeProgress.Json

def isSpace (c : Char) : Bool := c == ' ' || c == '\n' || c == '\t' || c == '\r'

def skipSpace (cs : List Char) : List Char := cs.dropWhile isSpace

/-- how many brackets may be open at once -/
def maxOpen : Nat := 127

/-! ### texts -/

def hex4? (a b c d : Char) : Option Nat := do
  return 4096 * (← hexValue? a) + 256 * (← hexValue? b) + 16 * (← hexValue? c) + (← hexValue? d)

def escaped? : Char → Option Char
  | '"' => some '"'
  | '\\' => some '\\'
  | '/' => some '/'
  | 'b' => some '\x08'
  | 'f' => some '\x0c'
  | 'n' => some '\n'
  | 'r' => some '\r'
  | 't' => some '\t'
  | _ => none

def isHighHalf (n : Nat) : Bool := 0xD800 ≤ n && n ≤ 0xDBFF
def isLowHalf (n : Nat) : Bool := 0xDC00 ≤ n && n ≤ 0xDFFF

/-- the character of a surrogate pair -/
def joinHalves (high low : Nat) : Char :=
  Char.ofNat (0x10000 + 1024 * (high - 0xD800) + (low - 0xDC00))

/-- reads the rest of a text after its opening quote.  `high` is a first half of a pair that waits
for its second; `good` is false once a half has been left alone; `done` holds the characters so
far, the last one first. -/
def textBody (high : Option Nat) (good : Bool) (done : List Char) : Reading (Option String)
  | '\\' :: 'u' :: a :: b :: c :: d :: rest =>
    match hex4? a b c d with
    | none => none
    | some n =>
      match high with
      | some h =>
        if isLowHalf n then textBody none good (joinHalves h n :: done) rest
        else if isHighHalf n then textBody (some n) false done rest
        else textBody none false (Char.ofNat n :: done) rest
      | none =>
        if isHighHalf n then textBody (some n) good done rest
        else if isLowHalf n then textBody none false done rest
        else textBody none good (Char.ofNat n :: done) rest
  | '\\' :: e :: rest =>
    match escaped? e with
    | none => none
    | some c => textBody none (good && high.isNone) (c :: done) rest
  | '"' :: rest =>
    some (if good && high.isNone then some (String.ofList done.reverse) else none, rest)
  | c :: rest =>
    if c.toNat < 0x20 then none else textBody none (good && high.isNone) (c :: done) rest
  | [] => none

/-! ### numbers -/

def fraction : Reading (Option (List Char))
  | '.' :: rest =>
    let (digits, rest) := spanDigits rest
    if digits.isEmpty then none else some (some digits, rest)
  | cs => some (none, cs)

def exponentDigits (negative : Bool) (cs : List Char) : Option (Option Int × List Char) :=
  let (digits, rest) := spanDigits cs
  if digits.isEmpty then none
  else
    let value : Int := digitsValue digits
    some (some (if negative then -value else value), rest)

def exponent : Reading (Option Int)
  | e :: rest =>
    if e == 'e' || e == 'E' then
      match rest with
      | '-' :: rest => exponentDigits true rest
      | '+' :: rest => exponentDigits false rest
      | rest => exponentDigits false rest
    else some (none, e :: rest)
  | [] => some (none, [])

/-- no zero stands before other digits -/
def unsignedNumber (negative : Bool) : Reading NumberLiteral := fun cs => do
  let (whole, rest) := spanDigits cs
  if whole.isEmpty || (whole.head? == some '0' && whole.length ≠ 1) then none
  let (fraction, rest) ← fraction rest
  let (exponent, rest) ← exponent rest
  return (⟨negative, whole, fraction, exponent⟩, rest)

def numberValue (n : NumberLiteral) : Document :=
  let m := n.magnitude
  if n.isWhole && !n.negative && m < UInt64.size then .integer m
  else if n.isWhole && n.negative && m ≠ 0 && m ≤ maxNegative then .integer (-m)
  else match n.toScaled? with
    | some x => .real x
    | none => .malformed

def number : Reading Document
  | '-' :: rest => (unsignedNumber true rest).map fun e => (numberValue e.1, e.2)
  | cs => (unsignedNumber false cs).map fun e => (numberValue e.1, e.2)

/-! ### values -/

/-- reads a given word -/
def keyword (word : String) (d : Document) : Reading Document := fun cs =>
  (skipText? word cs).map (d, ·)

/-- the members of an object, or nothing when a key is no text -/
def objectOf (members : List (Option String × Document)) : Document :=
  match members.mapM fun e => e.1.map (·, e.2) with
  | some members => .object members
  | none => .malformed

mutual

/-- reads a value within `depth` open brackets; `fuel` bounds the number of steps -/
def value (depth : Nat) : (fuel : Nat) → Reading Document
  | 0, _ => none
  | fuel + 1, cs =>
    match skipSpace cs with
    | '"' :: rest =>
      (textBody none true [] rest).map fun e => ((e.1.map Document.text).getD .malformed, e.2)
    | '[' :: rest =>
      let within (items : List Document) : Document :=
        if depth < maxOpen then .list items else .malformed
      match skipSpace rest with
      | ']' :: rest => some (within [], rest)
      | rest => (items (depth + 1) [] fuel rest).map fun e => (within e.1, e.2)
    | '{' :: rest =>
      let within (members : List (Option String × Document)) : Document :=
        if depth < maxOpen then objectOf members else .malformed
      match skipSpace rest with
      | '}' :: rest => some (within [], rest)
      | rest => (members (depth + 1) [] fuel rest).map fun e => (within e.1, e.2)
    | 'n' :: rest => keyword "null" .null ('n' :: rest)
    | 't' :: rest => keyword "true" (.bool true) ('t' :: rest)
    | 'f' :: rest => keyword "false" (.bool false) ('f' :: rest)
    | rest => number rest

/-- reads items up to the closing bracket; `done` holds the earlier ones, the last one first -/
def items (depth : Nat) (done : List Document) : (fuel : Nat) → Reading (List Document)
  | 0, _ => none
  | fuel + 1, cs =>
    match value depth fuel cs with
    | none => none
    | some (d, rest) =>
      match skipSpace rest with
      | ',' :: rest => items depth (d :: done) fuel rest
      | ']' :: rest => some ((d :: done).reverse, rest)
      | _ => none

/-- reads members up to the closing brace -/
def members (depth : Nat) (done : List (Option String × Document)) :
    (fuel : Nat) → Reading (List (Option String × Document))
  | 0, _ => none
  | fuel + 1, cs =>
    match skipSpace cs with
    | '"' :: rest =>
      match textBody none true [] rest with
      | none => none
      | some (key, rest) =>
        match skipSpace rest with
        | ':' :: rest =>
          match value depth fuel rest with
          | none => none
          | some (d, rest) =>
            match skipSpace rest with
            | ',' :: rest => members depth ((key, d) :: done) fuel rest
            | '}' :: rest => some (((key, d) :: done).reverse, rest)
            | _ => none
        | _ => none
    | _ => none

end

/-- reads a whole text -/
def read? (s : String) : Option Document :=
  let cs := s.toList
  match value 0 (2 * cs.length + 2) cs with
  | some (d, rest) => if (skipSpace rest).isEmpty then some d else none
  | none => none

end DegreeProgress.Json
