import DegreeProgress.Decimal.Literal
import DegreeProgress.Document.Ron.Lexeme

/-!
# RON numbers

A whole number may name its type in a suffix and may be written in other bases; a real number has a
point, an exponent, more digits than 64 bits hold, or the type of one.
-/

namespace DegreeProgress.Ron

/-! ### whole numbers -/

/-- a type of whole numbers -/
structure WholeType where
  signed : Bool
  bits : Nat
  deriving DecidableEq

namespace WholeType

/-- how many numbers the type has -/
def size (t : WholeType) : Nat := Nat.pow 2 t.bits

/-- whether a number is of the type; of a type with signs, half of the numbers are negative -/
def holds (t : WholeType) (n : Int) : Bool :=
  let half : Int := t.size / 2
  if t.signed then -half ≤ n && n < half else 0 ≤ n && n < t.size

def natural (bits : Nat) : WholeType := ⟨false, bits⟩

/-- all types, narrower ones first -/
def all : List WholeType := [8, 16, 32, 64].flatMap fun bits => [⟨false, bits⟩, ⟨true, bits⟩]

def suffix (t : WholeType) : String := (if t.signed then "i" else "u") ++ toString t.bits

/-- how long the suffix is that names the type -/
def suffixLength (type? : Option WholeType) : Nat := (type?.map (·.suffix.length)).getD 0

end WholeType

/-- a whole number as it is written -/
structure WholeLiteral where
  negative : Bool
  /-- the type that it names -/
  type? : Option WholeType
  value : Int

namespace WholeLiteral

/-- the type that it names or else the narrowest, with a sign only if it has a minus; nothing where
the number is too large -/
def type (l : WholeLiteral) : Option WholeType :=
  match l.type? with
  | some t => if t.holds l.value then some t else none
  | none => WholeType.all.find? fun t => t.signed == l.negative && t.holds l.value

/-- it may stand where a number of the type is wanted -/
def fits (l : WholeLiteral) (t : WholeType) : Bool := l.type?.all (· == t) && t.holds l.value

end WholeLiteral

/-- a character that may stand among the digits of a whole number in some base -/
def isWholeChar (c : Char) : Bool := isDigitOf 16 c || c == '_'

/-- skips a sign; whether it is a minus -/
def sign : List Char → Bool × List Char
  | '-' :: cs => (true, cs)
  | '+' :: cs => (false, cs)
  | cs => (false, cs)

/-- skips the mark of a base -/
def base : List Char → Nat × List Char
  | '0' :: 'b' :: cs => (2, cs)
  | '0' :: 'o' :: cs => (8, cs)
  | '0' :: 'x' :: cs => (16, cs)
  | cs => (10, cs)

/-- digits with underscores among them but not before them -/
def magnitude : Reading Nat := fun cs =>
  let (base, cs) := base cs
  let (run, rest) := spanOf isWholeChar cs
  let digits := run.filter (· != '_')
  if run.isEmpty || run.head? == some '_' || !digits.all (isDigitOf base) then none
  else some (digitsValueIn base digits, rest)

/-- the type whose suffix follows the digits -/
def namedType? (cs : List Char) : Option WholeType :=
  let rest := cs.dropWhile isWholeChar
  WholeType.all.find? fun t => (skipWord? t.suffix rest).isSome

/-- a whole number or a byte, whatever its size -/
def whole : Reading WholeLiteral := fun cs =>
  match byte cs with
  | some (b, rest) => some (⟨false, some (.natural 8), b.toNat⟩, rest)
  | none => do
    let (negative, cs) := sign cs
    let (m, rest) ← magnitude cs
    let type? := namedType? cs
    return (⟨negative, type?, if negative then -m else m⟩, rest.drop (WholeType.suffixLength type?))

/-- a whole number of a type, which no suffix may contradict -/
def wholeOf (t : WholeType) : Reading Int := fun cs => do
  let (l, rest) ← whole cs
  if l.fits t then return (l.value, rest) else none

/-! ### real numbers -/

/-- how many bits a real number has -/
inductive RealType where
  | single
  | double
  deriving DecidableEq

namespace RealType

def suffix : RealType → String
  | single => "f32"
  | double => "f64"

/-- the type whose suffix comes next, if any, and what follows -/
def skipSuffix (cs : List Char) : Option RealType × List Char :=
  match skipWord? single.suffix cs, skipWord? double.suffix cs with
  | some rest, _ => (some single, rest)
  | none, some rest => (some double, rest)
  | none, none => (none, cs)

end RealType

/-- a real number with the type that it names -/
structure RealLiteral where
  type? : Option RealType
  value : Float

/-- a character that may stand in a real number -/
def isRealChar (c : Char) : Bool :=
  c.isDigit || c == '_' || c == '.' || c == 'e' || c == 'E' || c == '+' || c == '-'

def infinity : Float := 1.0 / 0.0

def notANumber : Float := 0.0 / 0.0

/-- the real numbers that have names -/
def namedReals : List (String × Float) :=
  [("inf", infinity), ("+inf", infinity), ("-inf", -infinity), ("NaN", notANumber),
   ("+NaN", notANumber), ("-NaN", notANumber)]

/-- a real number by its name, with or without the suffix of a type -/
def namedReal : Reading RealLiteral := fun cs =>
  namedReals.findSome? fun (word, x) => do
    let (type?, rest) := RealType.skipSuffix (← skipText? word cs)
    if rest.head?.any isNamePart then none else return (⟨type?, x⟩, rest)

def isExponentMark (c : Char) : Bool := c == 'e' || c == 'E'

/-- the characters of a number without underscores, of which none may come before the first digit or
right after a point -/
def ungrouped (allowed : Bool) : List Char → Option (List Char)
  | [] => some []
  | c :: cs =>
    if c == '_' then if allowed then ungrouped allowed cs else none
    else
      let next := c.isDigit || isExponentMark c || (allowed && c != '.')
      (ungrouped next cs).map (c :: ·)

/-- an exponent, where there is one -/
def exponent? : List Char → Option (Option Int)
  | [] => some none
  | c :: cs =>
    let (negative, digits) := sign cs
    let n : Int := digitsValue digits
    if !isExponentMark c || digits.isEmpty || !digits.all Char.isDigit then none
    else some (some (if negative then -n else n))

/-- a number with digits before its point or after it -/
def literal? (cs : List Char) : Option NumberLiteral := do
  let (negative, cs) := sign cs
  let (whole, rest) := spanDigits cs
  let (fraction, rest) := match rest with
    | '.' :: rest => spanDigits rest
    | rest => ([], rest)
  if whole.isEmpty && fraction.isEmpty then none
  return ⟨negative, whole, some fraction, ← exponent? rest⟩

def real : Reading RealLiteral := fun cs =>
  match namedReal cs with
  | some e => some e
  | none => do
    let (run, rest) := spanOf isRealChar cs
    let n ← literal? (← ungrouped false run)
    let (type?, rest) := RealType.skipSuffix rest
    return (⟨type?, if type? = some .single then n.toNearestSingle else n.toNearest⟩, rest)

/-- reads a real number of 64 bits, which no suffix may contradict -/
def double : Reading Float := fun cs => do
  let (l, rest) ← real cs
  if l.type? = some .single then none else return (l.value, rest)

/-! ### numbers of any type -/

/-- a number with the type that it names or needs -/
inductive AnyNumber where
  | whole (type : WholeType) (value : Int)
  | real (value : Float)

/-- more of a real number comes next than of a whole one -/
def looksReal (cs : List Char) : Bool :=
  let (_, cs) := sign cs
  (cs.takeWhile isWholeChar).length < (cs.takeWhile isRealChar).length

/-- a whole number that some type holds, or else a real one -/
def anyNumber : Reading AnyNumber := fun cs =>
  let asReal : Option (AnyNumber × List Char) := (real cs).map fun e => (.real e.1.value, e.2)
  if looksReal cs then asReal
  else match whole cs with
    | none => asReal
    | some (l, rest) =>
      match l.type with
      | some t => some (.whole t l.value, rest)
      | none => asReal

end DegreeProgress.Ron
