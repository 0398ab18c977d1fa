import DegreeProgress.Proofs.Text.Moving
import DegreeProgress.Rule.Expression

/-!
# Reading by byte positions

The readers of expressions move over characters.  Here is the parser that they stand for: it holds
a byte position and a nesting depth, slices the text at the position for each look at it, and loops
until it finds no separator.  A slice off the boundaries of characters stops it (`Halt.badSlice`),
and so do more turns of its loops and calls than it is given (`Halt.unfinished`).  Its `Trace` keeps
what it went through: every place, and the depth before and after every nested step.
-/

namespace DegreeProgress.Expression

/-- where the parser stands -/
structure Place where
  /-- the bytes before it -/
  position : Nat
  /-- the nested steps it is in -/
  depth : Nat

structure Trace where
  place : Place
  /-- the places before, the latest first -/
  passed : List Place
  /-- the depth before and after each nested step that ended -/
  nestings : List (Nat × Nat)

namespace Trace

def start : Trace := ⟨⟨0, 0⟩, [], []⟩

/-- every place of the trace, the latest first -/
def places (σ : Trace) : List Place := σ.place :: σ.passed

def moveTo (σ : Trace) (position : Nat) : Trace :=
  { σ with place := { σ.place with position }, passed := σ.places }

/-- one level further in -/
def enter (σ : Trace) : Trace :=
  { σ with place := { σ.place with depth := σ.place.depth + 1 }, passed := σ.places }

/-- out again from a step that was entered at depth `before` -/
def leave (σ : Trace) (before : Nat) : Trace where
  place := { σ.place with depth := σ.place.depth - 1 }
  passed := σ.places
  nestings := (before, σ.place.depth - 1) :: σ.nestings

end Trace

/-- why the parser stops -/
inductive Halt where
  | failed (error : ExpressionError)
  | badSlice
  | unfinished

/-- a step of the parser, which changes the trace also when it stops -/
abbrev Scan (α : Type) : Type := EStateM Halt Trace α

namespace Scan

section
variable {α P : Type} (text : String)

/-! ### characters -/

def position : Scan Nat := fun σ => .ok σ.place.position σ

def advance (bytes : Nat) : Scan Unit := fun σ => .ok () (σ.moveTo (σ.place.position + bytes))

def fail (e : ExpressionError) : Scan α := throw (.failed e)

/-- the text from the position on -/
def rest : Scan (List Char) := fun σ =>
  match cut σ.place.position text.toList with
  | some (_, after) => .ok after σ
  | none => .error .badSlice σ

/-- the first bytes of a text -/
def front (bytes : Nat) (cs : List Char) : Scan String :=
  match cut bytes cs with
  | some (before, _) => return String.ofList before
  | none => throw .badSlice

/-- moves over the run of characters of a class that `cs` starts with, and slices it out -/
def run (p : Char → Bool) (cs : List Char) : Scan String := do
  let bytes := utf8Length (cs.takeWhile p)
  advance bytes
  front bytes cs

def skipGap : Scan Unit := do
  let cs ← rest text
  advance (utf8Length cs - utf8Length (cs.dropWhile Cursor.isGap))

/-! ### tokens -/

/-- moves over `token` when it comes next -/
def eat (token : String) : Scan Bool := do
  skipGap text
  let cs ← rest text
  if token.toList.isPrefixOf cs then
    advance token.utf8ByteSize
    return true
  else return false

/-- stops with the error for whatever comes next -/
def unexpected (expected : String) : Scan α := do
  skipGap text
  let cs ← rest text
  let found := match cs with
    | [] => "end of input"
    | ch :: _ => s!"`{ch}`"
  let position ← position
  fail (.unexpected expected found position)

def expect (token : String) : Scan Unit := do
  if ← eat text token then return () else unexpected text token

def name? : Scan (Option String) := do
  skipGap text
  let cs ← rest text
  if cs.head?.any isNameStart then
    let word ← run isNamePart cs
    return some word
  else return none

/-- a run of digits with its position -/
def digits? : Scan (Option (String × Nat)) := do
  skipGap text
  let start ← position
  let cs ← rest text
  if utf8Length (cs.takeWhile Char.isDigit) = 0 then return none
  else
    let raw ← run Char.isDigit cs
    return some (raw, start)

def number (what : String) (bound : Nat) : Scan Nat := do
  match ← digits? text with
  | none => unexpected text what
  | some (raw, start) =>
    if digitsValue raw.toList < bound then return digitsValue raw.toList
    else fail (.number raw start)

def literal : Scan Literal := do
  skipGap text
  let start ← position
  if ← eat text "\"" then
    let cs ← rest text
    if cs.contains '"' then
      let bytes := utf8Length (cs.takeWhile (· != '"'))
      advance (bytes + 1)
      let body ← front bytes cs
      return .text body
    else fail (.unexpected "closing `\"`" "end of input" start)
  else
    let n ← number text "a string or number" UInt64.size
    return .number (UInt64.ofNat n)

/-! ### loops and nested steps -/

/-- items with a separator between them -/
def separated (item : Scan α) (separator : String) : (turns : Nat) → Scan (List α)
  | 0 => throw .unfinished
  | turns + 1 => do
    let x ← item
    if ← eat text separator then
      let xs ← separated item separator turns
      return x :: xs
    else return [x]

/-- a comma list and the parenthesis that closes it -/
def arguments (item : Scan α) (turns : Nat) : Scan (List α) := do
  if ← eat text ")" then return []
  else
    let xs ← separated text item "," turns
    expect text ")"
    return xs

/-- runs `step` one level further in; `start` is reported where that is too deep -/
def nested (start : Nat) (step : Scan α) : Scan α := fun σ =>
  if σ.place.depth = maxNesting then .error (.failed (.tooDeep start)) σ
  else match step σ.enter with
    | .ok a τ => .ok a (τ.leave σ.place.depth)
    | .error h τ => .error h (τ.leave σ.place.depth)

/-! ### rules -/

variable (resolve : Resolver P) (turns : Nat)

def conjunction (factor : Scan (Rule P)) : Scan (Rule P) := do
  let rs ← separated text factor "&&" turns
  return Rule.joined .all rs

def disjunction (factor : Scan (Rule P)) : Scan (Rule P) := do
  let rs ← separated text (conjunction text turns factor) "||" turns
  return Rule.joined .any rs

/-- the rest of a call after its opening parenthesis -/
def call (factor : Scan (Rule P)) (name : String) (start : Nat) : Scan (Rule P) :=
  let members := arguments text (disjunction text turns factor) turns
  match name with
  | "all" => do
    let rs ← members
    return .all rs
  | "any" => do
    let rs ← members
    return .any rs
  | "not" => do
    match ← members with
    | [r] => return .not r
    | rs => fail (.unexpected "one member in `not(..)`" s!"{rs.length} members" start)
  | "at_least" => do
    let min ← number text "a count" UInt8.size
    expect text ","
    let rs ← members
    return .atLeast (UInt8.ofNat min) rs
  | name => do
    let args ← arguments text (literal text) turns
    match resolve name args with
    | .ok question => return .leaf question
    | .error message => fail (.leaf name message start)

/-- a factor, with as many turns left for every loop in it and every factor inside it -/
def factor : (turns : Nat) → Scan (Rule P)
  | 0 => throw .unfinished
  | turns + 1 => do
    skipGap text
    let start ← position
    if ← eat text "!" then
      nested start do
        let r ← factor turns
        return .not r
    else if ← eat text "(" then
      nested start do
        let r ← disjunction text turns (factor turns)
        expect text ")"
        return r
    else
      match ← name? text with
      | none => unexpected text "`!`, `(` or a call"
      | some name =>
        expect text "("
        nested start (call text resolve turns (factor turns) name start)

/-- a whole text -/
def parse : Scan (Rule P) :=
  if maxBytes < text.utf8ByteSize then fail (.tooLarge text.utf8ByteSize)
  else if isAllBlank text then fail .empty
  else do
    let rule ← disjunction text turns (factor text resolve turns)
    skipGap text
    let position ← position
    if position = text.utf8ByteSize then
      match rule.fault? with
      | some fault => fail (.shape fault)
      | none => return rule
    else unexpected text "`&&`, `||` or end of input"

end

end Scan

end DegreeProgress.Expression
