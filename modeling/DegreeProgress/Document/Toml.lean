import DegreeProgress.Document.Toml.Scalar
import DegreeProgress.Document.Toml.Table
import DegreeProgress.Document.Toml.Text

/-!
# Reading TOML

A text is a row of statements: a header opens a table, and an assignment gives a key of the open
table its value.  A value may take many lines where brackets are open, and at most `maxLevels` of
them may be.
-/

namespace DegreeProgress.Toml

/-! ### values -/

/-- skips what may stand around the parts of an assignment within `depth` open brackets -/
def skipGap (depth : Nat) (cs : List Char) : List Char :=
  if depth = 0 then skipBlanks cs else skipLines false cs

mutual

/-- reads a value within `depth` open brackets; `fuel` bounds the number of steps -/
def value (depth : Nat) : (fuel : Nat) → Reading Document
  | 0, _ => none
  | fuel + 1, cs =>
    match cs with
    | '[' :: rest =>
      if depth < maxLevels then (items (depth + 1) [] fuel rest).map fun e => (.list e.1, e.2)
      else none
    | '{' :: rest =>
      if depth < maxLevels then
        (members (depth + 1) (Item.ofMarks false false) fuel rest).map fun e =>
          (e.1.toDocument, e.2)
      else none
    | cs =>
      match text? cs with
      | some (s, rest) => some (.text s, rest)
      | none => word cs
termination_by structural fuel => fuel

/-- reads items up to the closing bracket -/
def items (depth : Nat) (done : List Document) : (fuel : Nat) → Reading (List Document)
  | 0, _ => none
  | fuel + 1, cs =>
    match skipLines false cs with
    | ']' :: rest => some (done.reverse, rest)
    | rest =>
      match value depth fuel rest with
      | none => none
      | some (d, rest) =>
        match skipLines false rest with
        | ',' :: rest => items depth (d :: done) fuel rest
        | ']' :: rest => some ((d :: done).reverse, rest)
        | _ => none
termination_by structural fuel => fuel

/-- reads the members of an inline table up to the closing brace -/
def members (depth : Nat) (done : Item) : (fuel : Nat) → Reading Item
  | 0, _ => none
  | fuel + 1, cs =>
    match skipLines false cs with
    | '}' :: rest => some (done, rest)
    | rest =>
      match assignment depth fuel rest with
      | none => none
      | some ((path, d), rest) =>
        match path.getLast?.bind fun key => done.assign path.dropLast key d with
        | none => none
        | some done =>
          match skipLines false rest with
          | ',' :: rest => members depth done fuel rest
          | '}' :: rest => some (done, rest)
          | _ => none
termination_by structural fuel => fuel

/-- reads keys, an equals sign and a value; on one line, unless a bracket is open -/
def assignment (depth : Nat) : (fuel : Nat) → Reading (List String × Document)
  | 0, _ => none
  | fuel + 1, cs =>
    match keys cs with
    | none => none
    | some (path, rest) =>
      match skipGap depth rest with
      | '=' :: rest => (value depth fuel (skipGap depth rest)).map fun e => ((path, e.1), e.2)
      | _ => none
termination_by structural fuel => fuel

end

/-! ### statements -/

/-- the tables so far and the path of the open one -/
structure Builder where
  root : Item
  opened : List String

namespace Builder

def start : Builder := ⟨Item.ofMarks false false, []⟩

def openTable (b : Builder) (path : List String) : Option Builder := do
  let root ← b.root.editAt false (Item.openHere (← path.getLast?)) path.dropLast
  return ⟨root, path⟩

def openRow (b : Builder) (path : List String) : Option Builder := do
  let root ← b.root.editAt false (Item.openRowHere (← path.getLast?)) path.dropLast
  return ⟨root, path⟩

def assign (b : Builder) (path : List String) (d : Document) : Option Builder := do
  let key ← path.getLast?
  let root ← b.root.editAt false (·.assign path.dropLast key d) b.opened
  return ⟨root, b.opened⟩

end Builder

/-- the keys of a header, up to what closes it -/
def header (closing : String) : Reading (List String) := fun cs => do
  let (path, rest) ← keys cs
  return (path, ← skipText? closing rest)

/-- reads one statement, without the end of its line -/
def statement (b : Builder) (fuel : Nat) : Reading Builder
  | '[' :: '[' :: cs => do
    let (path, rest) ← header "]]" cs
    return (← b.openRow path, rest)
  | '[' :: cs => do
    let (path, rest) ← header "]" cs
    return (← b.openTable path, rest)
  | cs => do
    let ((path, d), rest) ← assignment 0 fuel cs
    return (← b.assign path d, rest)

/-- every step takes a character, so twice their number bounds the steps of a text -/
def statements (b : Builder) : (fuel : Nat) → List Char → Option Builder
  | 0, _ => none
  | fuel + 1, cs =>
    match skipLines false cs with
    | [] => some b
    | cs => do
      let (b, rest) ← statement b fuel cs
      statements b fuel (← lineEnd? rest)

/-- the text without a byte order mark -/
def skipMark : List Char → List Char
  | '\uFEFF' :: cs => cs
  | cs => cs

/-- reads a whole text -/
def read? (s : String) : Option Document :=
  let cs := skipMark s.toList
  (statements .start (2 * cs.length + 4) cs).map (·.root.toDocument)

end DegreeProgress.Toml
