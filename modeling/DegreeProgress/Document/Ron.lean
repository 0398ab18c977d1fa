import DegreeProgress.Document.Form
import DegreeProgress.Document.Ron.Header
import DegreeProgress.Document.Ron.Number

/-!
# Reading RON

Structures are fields in parentheses, lists and maps stand in brackets and braces, and an option is
`Some(..)` or `None`.  A comma may follow the last part of anything.  A text is read by the form of
what it holds, because a name alone does not show whether it is a text, one of several names or the
name of a structure.
-/

namespace DegreeProgress.Ron

/-- how many levels a text may have; an option is one level, and whatever has parts is two -/
def maxLevels : Nat := 128

/-! ### values without parts -/

/-- `true` or `false` -/
def switch : Reading Document := fun cs =>
  match skipWord? "true" cs, skipWord? "false" cs with
  | some rest, _ => some (.bool true, rest)
  | none, some rest => some (.bool false, rest)
  | none, none => none

/-- a number whose type is not known -/
def number : Reading Document := fun cs => (anyNumber cs).map fun
  | (.whole _ n, rest) => (.integer n, rest)
  | (.real x, rest) => (.real x, rest)

/-- a real number by its name -/
def realWord : Reading Document := fun cs => (namedReal cs).map fun e => (.real e.1.value, e.2)

/-- what does not show its kind by a name or a bracket: texts, bytes, characters and numbers.  Bytes
stand for a text if they are the form of one. -/
def literal : Reading Document := fun cs =>
  match text cs with
  | some (s, rest) => some (.text s, rest)
  | none =>
    match bytes cs with
    | some (bs, rest) => some (((textOfBytes? bs).map Document.text).getD .foreign, rest)
    | none =>
      match character cs with
      | some (_, rest) => some (.foreign, rest)
      | none => number cs

/-- whether a marked option or its absence comes next -/
def startsOption (cs : List Char) : Bool :=
  (skipWord? "None" cs).isSome || (skipWord? "Some" cs).isSome

/-- what an ignored number is skipped as: its characters may stand in any order -/
def skipReal (cs : List Char) : List Char :=
  (RealType.skipSuffix (cs.dropWhile isRealChar)).2

/-! ### parentheses -/

/-- the name of a structure, which may be left out -/
def structureName (x : Extensions) (wanted : String) (cs : List Char) : Option (List Char) :=
  if cs.head?.any isNamePart then do
    let (given, rest) ← properName cs
    if given = wanted then gap rest else none
  else if x.explicitNames then none
  else some cs

/-- whether the first thing in parentheses is the name of a field -/
def startsField (cs : List Char) : Bool :=
  (do
    let (_, rest) ← name (← gap cs)
    return (← gap rest).head? == some ':').getD false

def isOpening (c : Char) : Bool := c == '(' || c == '[' || c == '\x7b'
def isClosing (c : Char) : Bool := c == ')' || c == ']' || c == '\x7d'

/-- skips a character, a text and bytes, as far as they come next -/
def skipQuoted (cs : List Char) : List Char :=
  let cs := ((character cs).map (·.2)).getD cs
  let cs := ((text cs).map (·.2)).getD cs
  ((bytes cs).map (·.2)).getD cs

/-- whether another value follows the first one before `depth` brackets are closed -/
def holdsSeveral (depth : Nat) : (fuel : Nat) → List Char → Option Bool
  | 0, _ => none
  | fuel + 1, cs => do
    match skipQuoted (← gap cs) with
    | [] => none
    | c :: rest =>
      if isOpening c then holdsSeveral (depth + 1) fuel rest
      else if isClosing c then
        if depth = 1 then return false else holdsSeveral (depth - 1) fuel rest
      else if c == ',' && depth == 1 then return (← gap rest).head? != some ')'
      else holdsSeveral depth fuel rest

/-- what may stand in parentheses -/
inductive Content where
  | fields
  /-- one value, perhaps with a comma after it -/
  | single
  | several

/-- what stands in parentheses, after the opening one -/
def contentOf (fuel : Nat) (cs : List Char) : Option Content := do
  if startsField cs then return .fields
  else if ← holdsSeveral 1 fuel cs then return .several
  else return .single

/-! ### entries -/

/-- what the entry of a map is known by when its key is read before the form of the map is known.  A
number is the place of a field if its type is one without signs, of 8 or 64 bits; bytes that are no
text are the empty name. -/
def entryKey (key : Document) (source : List Char) : EntryKey :=
  match key with
  | .text s => .name s
  | .integer _ =>
    match anyNumber source with
    | some (.whole t n, _) => if t = .natural 8 ∨ t = .natural 64 then .index n.toNat else .other
    | _ => .other
  | _ => if (bytes source).isSome then .name "" else .other

/-- an object where all keys are texts -/
def mapOf (es : List (EntryKey × Document)) : Document :=
  match es.mapM fun | (.name s, d) => some (s, d) | _ => none with
  | some members => .object members
  | none => .entries es

/-! ### values -/

/-- the levels that are left within a level, where there may be one more -/
def deeper? : Nat → Option Nat
  | 0 => none
  | room + 1 => some room

mutual

/-- reads a value of a form, with no gap before it and in at most `room` more levels; `fuel` bounds
the number of steps.  Inside an option, a value is `bare` if it goes without its own parentheses. -/
def value (x : Extensions) (form : Form) (bare : Bool) (room : Nat) :
    (fuel : Nat) → Reading Document
  | 0, _ => none
  | fuel + 1, cs =>
    match form with
    | .switch => switch cs
    | .natural bits => (wholeOf (.natural bits) cs).map fun e => (.integer e.1, e.2)
    | .real => (double cs).map fun e => (.real e.1, e.2)
    | .text => (text cs).map fun e => (.text e.1, e.2)
    | .name => do
      let _ ← deeper? (← deeper? room)
      (properName cs).map fun e => (.text e.1, e.2)
    | .optional form => option x form room fuel cs
    | .list form => list x form room fuel cs
    | .map form => map x .text form room fuel cs
    | .record wanted known => do
      let rest ← skipText? "(" (← structureName x wanted cs)
      let (members, rest) ← fields x known .ignored [] (← deeper? room) fuel rest
      return (.object members, ← skipText? ")" rest)
    | .free => if bare then bareValue x .free room fuel cs else anyValue x .free room fuel cs
    | .ignored =>
      if looksReal cs then some (.foreign, skipReal cs)
      else if bare then bareValue x .ignored room fuel cs
      else anyValue x .ignored room fuel cs
termination_by structural fuel => fuel

/-- reads an option; where the text allows it, its value may stand alone -/
def option (x : Extensions) (form : Form) (room : Nat) : (fuel : Nat) → Reading Document
  | 0, _ => none
  | fuel + 1, cs =>
    match skipWord? "None" cs with
    | some rest => some (.null, rest)
    | none => do
      let inner ← match skipWord? "Some" cs with
        | some rest => (gap rest).map some
        | none => some none
      match inner with
      | some ('(' :: rest) =>
        let (d, rest) ← value x form x.unwrapped (← deeper? room) fuel (← gap rest)
        let (_, rest) ← comma rest
        return (d, ← skipText? ")" rest)
      | inner =>
        if x.implicitSome then value x form false (← deeper? room) fuel (inner.getD cs) else none
termination_by structural fuel => fuel

/-- reads a list in brackets -/
def list (x : Extensions) (form : Form) (room : Nat) : (fuel : Nat) → Reading Document
  | 0, _ => none
  | fuel + 1, cs => do
    let (ds, rest) ← items x form ']' [] (← deeper? room) fuel (← skipText? "[" cs)
    return (.list ds, ← skipText? "]" rest)
termination_by structural fuel => fuel

/-- reads a map in braces -/
def map (x : Extensions) (keys values : Form) (room : Nat) : (fuel : Nat) → Reading Document
  | 0, _ => none
  | fuel + 1, cs => do
    let (es, rest) ← entries x keys values [] (← deeper? room) fuel (← skipText? "\x7b" cs)
    return (mapOf es, ← skipText? "\x7d" rest)
termination_by structural fuel => fuel

/-- reads a value of an option that has no parentheses of its own -/
def bareValue (x : Extensions) (form : Form) (room : Nat) : (fuel : Nat) → Reading Document
  | 0, _ => none
  | fuel + 1, cs =>
    if cs.head? == some ')' then some (.foreign, cs)
    else do
      match ← contentOf fuel cs with
      | .single => anyValue x form room fuel cs
      | content => parts x form content room fuel cs
termination_by structural fuel => fuel

/-- reads a value whose form is not known -/
def anyValue (x : Extensions) (form : Form) (room : Nat) : (fuel : Nat) → Reading Document
  | 0, _ => none
  | fuel + 1, cs =>
    if startsOption cs then (option x form room fuel cs).map fun e => (.foreign, e.2)
    else match (switch cs).or (realWord cs) with
      | some e => some e
      | none =>
        match name cs with
        | some (n, rest) => do named x form n room fuel (← gap rest)
        | none =>
          match cs with
          | '(' :: ')' :: rest => some (.foreign, rest)
          | '(' :: rest => group x form room fuel rest
          | '[' :: rest => list x form room fuel ('[' :: rest)
          | '\x7b' :: rest => map x form form room fuel ('\x7b' :: rest)
          | cs => literal cs
termination_by structural fuel => fuel

/-- reads what follows a name -/
def named (x : Extensions) (form : Form) (n : String) (room : Nat) : (fuel : Nat) → Reading Document
  | 0, _ => none
  | fuel + 1, cs =>
    match form, cs with
    | .free, '(' :: rest =>
      (variant x room fuel rest).map fun e => (.object [(n, e.1)], e.2)
    | .free, cs => some (.text n, cs)
    | _, '(' :: rest => group x form room fuel rest
    | _, cs => some (.foreign, cs)
termination_by structural fuel => fuel

/-- reads what stands in parentheses after a name.  A single value does not count as a level, and a
comma after it is left standing, so that the text fails there. -/
def variant (x : Extensions) (room : Nat) : (fuel : Nat) → Reading Document
  | 0, _ => none
  | fuel + 1, cs =>
    match cs with
    | ')' :: rest => some (.foreign, rest)
    | cs => do
      let inside ← gap cs
      match inside.head? == some ')', ← contentOf fuel cs with
      | false, .single =>
        let (d, rest) ← anyValue x .free room fuel inside
        let rest ← gap rest
        return (d, (skipText? ")" rest).getD rest)
      | _, _ => group x .free room fuel cs
termination_by structural fuel => fuel

/-- reads what stands in parentheses, after the opening one -/
def group (x : Extensions) (form : Form) (room : Nat) : (fuel : Nat) → Reading Document
  | 0, _ => none
  | fuel + 1, cs => do
    let content := if startsField cs then Content.fields else .several
    let (d, rest) ← parts x form content room fuel cs
    return (d, ← skipText? ")" rest)
termination_by structural fuel => fuel

/-- reads fields or values up to a closing parenthesis -/
def parts (x : Extensions) (form : Form) (content : Content) (room : Nat) :
    (fuel : Nat) → Reading Document
  | 0, _ => none
  | fuel + 1, cs => do
    match content with
    | .fields =>
      let (members, rest) ← fields x [] form [] (← deeper? room) fuel cs
      return (.object members, rest)
    | _ =>
      let (ds, rest) ← items x form ')' [] (← deeper? room) fuel cs
      return (.list ds, rest)
termination_by structural fuel => fuel

/-- reads values up to what closes them; `done` holds the earlier ones, the last one first -/
def items (x : Extensions) (form : Form) (closing : Char) (done : List Document) (room : Nat) :
    (fuel : Nat) → Reading (List Document)
  | 0, _ => none
  | fuel + 1, cs => do
    let cs ← gap cs
    if cs.head? == some closing then return (done.reverse, cs)
    else
      let (d, rest) ← value x form false (← deeper? room) fuel cs
      let (more, rest) ← comma rest
      if more then items x form closing (d :: done) room fuel rest
      else if rest.head? == some closing then return ((d :: done).reverse, rest)
      else none
termination_by structural fuel => fuel

/-- reads fields up to a closing parenthesis; those that are not known have the form `other` -/
def fields (x : Extensions) (known : List (String × Form)) (other : Form)
    (done : List (String × Document)) (room : Nat) :
    (fuel : Nat) → Reading (List (String × Document))
  | 0, _ => none
  | fuel + 1, cs => do
    let cs ← gap cs
    if cs.head? == some ')' then return (done.reverse, cs)
    else
      let (key, rest) ← properName cs
      let rest ← skipText? ":" (← gap rest)
      let form := (known.lookup key).getD other
      let (d, rest) ← value x form false (← deeper? room) fuel (← gap rest)
      let (more, rest) ← comma rest
      if more then fields x known other ((key, d) :: done) room fuel rest
      else if rest.head? == some ')' then return (((key, d) :: done).reverse, rest)
      else none
termination_by structural fuel => fuel

/-- reads the entries of a map up to the closing brace -/
def entries (x : Extensions) (keys values : Form) (done : List (EntryKey × Document)) (room : Nat) :
    (fuel : Nat) → Reading (List (EntryKey × Document))
  | 0, _ => none
  | fuel + 1, cs => do
    let cs ← gap cs
    if cs.head? == some '\x7d' then return (done.reverse, cs)
    else
      let (key, rest) ← value x keys false (← deeper? room) fuel cs
      let rest ← skipText? ":" (← gap rest)
      let (d, rest) ← value x values false (← deeper? room) fuel (← gap rest)
      let (more, rest) ← comma rest
      let done := (entryKey key cs, d) :: done
      if more then entries x keys values done room fuel rest
      else if rest.head? == some '\x7d' then return (done.reverse, rest)
      else none
termination_by structural fuel => fuel

end

/-- reads a whole text.  No more than five steps lie between two that take a character. -/
def read? (form : Form) (s : String) : Option Document := do
  let cs := s.toList
  let (x, cs) ← header {} (cs.length + 1) cs
  let (d, rest) ← value x form false maxLevels (6 * cs.length + 12) cs
  if (← gap rest).isEmpty then return d else none

end DegreeProgress.Ron
