import DegreeProgress.Rule.Shape
import DegreeProgress.Text.Cursor

/-!
# Rules as expressions

The written form of a rule:

* `a || b`, `a && b`, `!a`, `(a)`;
* the calls `all(..)`, `any(..)`, `not(..)`, `at_least(n, ..)` on rules;
* any other call `name(..)` on literals, which a resolver turns into a leaf.

`&&` binds closer than `||`.  `!`, parentheses and calls nest at most 32 deep.
-/

namespace DegreeProgress

/-- an argument of a leaf call -/
inductive Literal where
  | text (value : String)
  | number (value : UInt64)
  deriving DecidableEq, Repr

/-- why a text is no usable rule; positions are byte offsets -/
inductive ExpressionError where
  | empty
  | tooLarge (bytes : Nat)
  | tooDeep (position : Nat)
  | unexpected (expected found : String) (position : Nat)
  | number (raw : String) (position : Nat)
  | leaf (name message : String) (position : Nat)
  | shape (fault : ShapeFault)
  deriving DecidableEq

namespace Expression

/-- the longest expression, in bytes -/
def maxBytes : Nat := 16384

/-- how deep `!`, parentheses and calls nest -/
def maxNesting : Nat := 32

end Expression

def ExpressionError.message : ExpressionError → String
  | empty => "expression is empty"
  | tooLarge bytes => s!"expression is {bytes} bytes (max {Expression.maxBytes})"
  | tooDeep position => s!"expression nests deeper than {Expression.maxNesting} at {position}"
  | unexpected expected found position => s!"expected {expected} at {position}, found {found}"
  | number raw position => s!"number `{raw}` at {position} is out of range"
  | leaf name message position => s!"`{name}` at {position}: {message}"
  | shape fault => fault.message

namespace Expression

/-- reads an `α` from the front of the remaining text -/
abbrev Reading (α : Type) : Type := Cursor → Except ExpressionError (α × Cursor)

/-! ### tokens -/

/-- the error for whatever comes next -/
def unexpected (expected : String) (c : Cursor) : ExpressionError :=
  let c := c.skipGap
  let found := match c.rest with
    | [] => "end of input"
    | ch :: _ => s!"`{ch}`"
  .unexpected expected found c.offset

def require (token : String) (c : Cursor) : Except ExpressionError Cursor :=
  match c.eat? token with
  | some c => .ok c
  | none => .error (unexpected token c)

def isNameStart (ch : Char) : Bool := ch.isAlpha || ch == '_'
def isNamePart (ch : Char) : Bool := ch.isAlphanum || ch == '_'

/-- reads a name, or nothing when none comes next -/
def name? (c : Cursor) : Option (String × Cursor) :=
  let c := c.skipGap
  match c.rest with
  | [] => none
  | ch :: _ =>
    if isNameStart ch then
      let (word, c) := c.span isNamePart
      some (String.ofList word, c)
    else none

/-- reads a number below `bound`; `what` names it when there is none -/
def number (what : String) (bound : Nat) : Reading Nat := fun c =>
  let c := c.skipGap
  let (digits, after) := c.span Char.isDigit
  if digits.isEmpty then .error (unexpected what c)
  else if digitsValue digits < bound then .ok (digitsValue digits, after)
  else .error (.number (String.ofList digits) c.offset)

/-- reads a double-quoted text, which runs to the next double quote, or a number -/
def literal : Reading Literal := fun c =>
  let c := c.skipGap
  match c.eat? "\"" with
  | some inside =>
    let (body, after) := inside.span (· != '"')
    match after.eat? "\"" with
    | some after => .ok (.text (String.ofList body), after)
    | none => .error (.unexpected "closing `\"`" "end of input" c.offset)
  | none => do
    let (n, after) ← number "a string or number" UInt64.size c
    return (.number (UInt64.ofNat n), after)

/-! ### lists -/

/-- reads items with `separator` between them; `fuel` bounds the number of separators -/
def separated {α : Type} (item : Reading α) (separator : String) : (fuel : Nat) → Reading (List α)
  | 0, c => do
    let (x, c) ← item c
    return ([x], c)
  | fuel + 1, c => do
    let (x, c) ← item c
    match c.eat? separator with
    | some c =>
      let (xs, c) ← separated item separator fuel c
      return (x :: xs, c)
    | none => return ([x], c)

/-- every separator takes a character, so the rest of the text bounds their number -/
def separatedBy {α : Type} (item : Reading α) (separator : String) : Reading (List α) := fun c =>
  separated item separator c.rest.length c

/-- reads a comma list, possibly empty, and the parenthesis that closes it -/
def arguments {α : Type} (item : Reading α) : Reading (List α) := fun c =>
  match c.eat? ")" with
  | some c => .ok ([], c)
  | none => do
    let (xs, c) ← separatedBy item "," c
    let c ← require ")" c
    return (xs, c)

/-! ### rules -/

section
variable {P : Type}

/-- turns a leaf call into a question, or says why it is none -/
abbrev Resolver (P : Type) : Type := String → List Literal → Except String P

def conjunction (factor : Reading (Rule P)) : Reading (Rule P) := fun c => do
  let (rs, c) ← separatedBy factor "&&" c
  return (Rule.joined .all rs, c)

def disjunction (factor : Reading (Rule P)) : Reading (Rule P) := fun c => do
  let (rs, c) ← separatedBy (conjunction factor) "||" c
  return (Rule.joined .any rs, c)

/-- the rest of a call after its opening parenthesis; `start` is where its name stands -/
def call (resolve : Resolver P) (inner : Reading (Rule P)) (name : String) (start : Nat) :
    Reading (Rule P) := fun c =>
  let members := arguments (disjunction inner)
  match name with
  | "all" => do
    let (rs, c) ← members c
    return (.all rs, c)
  | "any" => do
    let (rs, c) ← members c
    return (.any rs, c)
  | "not" => do
    match ← members c with
    | ([r], c) => return (.not r, c)
    | (rs, _) => .error (.unexpected "one member in `not(..)`" s!"{rs.length} members" start)
  | "at_least" => do
    let (min, c) ← number "a count" UInt8.size c
    let c ← require "," c
    let (rs, c) ← members c
    return (.atLeast (UInt8.ofNat min) rs, c)
  | name => do
    let (args, c) ← arguments literal c
    match resolve name args with
    | .ok question => return (.leaf question, c)
    | .error message => .error (.leaf name message start)

/-- one factor; `deeper` reads the factors one level further in, and is missing on the last level -/
def factorOver (resolve : Resolver P) (deeper : Option (Reading (Rule P))) : Reading (Rule P) :=
  fun c =>
    let c := c.skipGap
    let nested (step : Reading (Rule P) → Reading (Rule P)) : Reading (Rule P) := fun after =>
      match deeper with
      | some inner => step inner after
      | none => .error (.tooDeep c.offset)
    match c.eat? "!" with
    | some after => nested (fun inner after => do
        let (r, after) ← inner after
        return (.not r, after)) after
    | none =>
      match c.eat? "(" with
      | some after => nested (fun inner after => do
          let (r, after) ← disjunction inner after
          let after ← require ")" after
          return (r, after)) after
      | none =>
        match name? c with
        | none => .error (unexpected "`!`, `(` or a call" c)
        | some (name, after) => do
          let after ← require "(" after
          nested (fun inner => call resolve inner name c.offset) after

/-- a factor that may nest `levels` deep -/
def factor (resolve : Resolver P) : (levels : Nat) → Reading (Rule P)
  | 0 => factorOver resolve none
  | levels + 1 => factorOver resolve (some (factor resolve levels))

/-- reads a whole text as a well-shaped rule -/
def parse (resolve : Resolver P) (text : String) : Except ExpressionError (Rule P) :=
  if maxBytes < text.utf8ByteSize then .error (.tooLarge text.utf8ByteSize)
  else if isAllBlank text then .error .empty
  else do
    let (rule, c) ← disjunction (factor resolve maxNesting) (Cursor.start text)
    if c.skipGap.rest.isEmpty then
      match rule.fault? with
      | some fault => .error (.shape fault)
      | none => return rule
    else .error (unexpected "`&&`, `||` or end of input" c)

end

end Expression

end DegreeProgress
