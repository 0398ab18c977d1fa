import DegreeProgress.Course.Basic

/-!
# Course code patterns

A subject and a number in which `*` stands for any byte, such as `CS 4**1`.
-/

namespace DegreeProgress

structure CodePattern where
  /-- in upper case -/
  subject : String
  /-- the bytes of the number in upper case, with `none` where any byte may stand -/
  number : List (Option UInt8)
  deriving DecidableEq

inductive PatternError where
  | empty
  | missingNumber (text : String)
  | invalidSubject (text : String)
  | invalidNumber (text : String)
  deriving DecidableEq

def PatternError.message : PatternError → String
  | empty => "course code pattern is empty"
  | missingNumber text => s!"course code pattern `{text}` is missing a number"
  | invalidSubject text => s!"course code pattern `{text}` has an invalid subject"
  | invalidNumber text => s!"course code pattern `{text}` has an invalid number"

/-- upper case for the 26 lower-case ASCII letters -/
def upperByte (b : UInt8) : UInt8 := if 97 ≤ b ∧ b ≤ 122 then b - 32 else b

namespace CodePattern

def numberOf (text : String) : List (Option UInt8) :=
  text.toList.map fun ch => if ch = '*' then none else some ch.toUpper.toUInt8

def parse (text : String) : Except PatternError CodePattern :=
  let shown := trimmed text
  match words text with
  | [] => .error .empty
  | [_] => .error (.missingNumber shown)
  | [subject, number] =>
    if !subject.toList.all Char.isAlphanum then .error (.invalidSubject shown)
    else if !number.toList.all (fun ch => ch.isAlphanum || ch == '*') then
      .error (.invalidNumber shown)
    else .ok ⟨upperAscii subject, numberOf number⟩
  | _ :: _ :: _ :: _ => .error (.invalidNumber shown)

/-- the pattern as text, the same for every way of writing it -/
def display (p : CodePattern) : String :=
  p.subject ++ " " ++ String.ofList (p.number.map fun
    | some b => Char.ofUInt8 b
    | none => '*')

def byteMatches : Option UInt8 → UInt8 → Bool
  | none, _ => true
  | some expected, actual => upperByte actual == expected

/-- the code has two words, the subject and a number of the pattern's length in bytes -/
def matchesCode (p : CodePattern) (code : String) : Bool :=
  match words code with
  | [subject, number] =>
    let bytes := utf8Bytes number
    eqIgnoringCase subject p.subject && bytes.length == p.number.length &&
      (p.number.zip bytes).all fun e => byteMatches e.1 e.2
  | _ => false

end CodePattern

end DegreeProgress
