import DegreeProgress.Document.Ron.Lexeme

/-!
# RON headers

Before its value, a text may have attributes, in any number and order.  Some turn extensions of the
format on, such as `#![enable(implicit_some)]`.  Others tell editors what the text holds, such as
`#![type = "Student"]`, and change nothing about how it is read.
-/

namespace DegreeProgress.Ron

/-- what a text turns on -/
structure Extensions where
  /-- an option may be written as its value alone -/
  implicitSome : Bool := false
  /-- the value of an option may go without its own parentheses -/
  unwrapped : Bool := false
  /-- every structure has to state its name -/
  explicitNames : Bool := false

namespace Extensions

/-- turns the extension with a name on; no form has a wrapper that `unwrap_newtypes` could leave
out -/
def enable? (x : Extensions) : String → Option Extensions
  | "unwrap_newtypes" => some x
  | "implicit_some" => some { x with implicitSome := true }
  | "unwrap_variant_newtypes" => some { x with unwrapped := true }
  | "explicit_struct_names" => some { x with explicitNames := true }
  | _ => none

end Extensions

/-- skips the given texts, with a gap after each -/
def skipTokens? : List String → List Char → Option (List Char)
  | [], cs => some cs
  | token :: tokens, cs => do
    skipTokens? tokens (← gap (← skipText? token cs))

/-- the names of extensions with commas between them, and perhaps one at the end -/
def extensionNames (x : Extensions) : (fuel : Nat) → Reading Extensions
  | 0, _ => none
  | fuel + 1, cs => do
    let (n, rest) ← properName cs
    let x ← x.enable? n
    let (more, rest) ← comma rest
    if more && rest.head?.any isNamePart then extensionNames x fuel rest else return (x, rest)

/-- the attributes that state something about a text as a text in quotes -/
def remarks : List String := ["type", "schema"]

/-- what stands in the brackets of an attribute -/
def attributeBody (x : Extensions) : Reading Extensions := fun cs =>
  match skipTokens? ["enable", "("] cs with
  | some rest => do
    let (x, rest) ← extensionNames x rest.length rest
    return (x, ← skipTokens? [")"] rest)
  | none => do
    let (_, rest) ← text (← remarks.findSome? fun word => skipTokens? [word, "="] cs)
    return (x, ← gap rest)

/-- all attributes before the value, with the gaps around them -/
def header (x : Extensions) : (fuel : Nat) → Reading Extensions
  | 0, _ => none
  | fuel + 1, cs => do
    match ← gap cs with
    | '#' :: rest =>
      let (x, rest) ← attributeBody x (← skipTokens? ["#", "!", "["] ('#' :: rest))
      header x fuel (← skipTokens? ["]"] rest)
    | rest => return (x, rest)

end DegreeProgress.Ron
