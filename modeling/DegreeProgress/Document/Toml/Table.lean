import DegreeProgress.Document.Basic

/-!
# TOML tables

A table while the statements of a text fill it.  A table may be opened once, and a key may be
assigned once.
-/

namespace DegreeProgress.Toml

/-- what is known of a table that may still grow -/
structure Marks where
  /-- it only lies on the way to another table -/
  implicit : Bool
  /-- it was made by a dotted key of an assignment -/
  dotted : Bool

inductive Item where
  | value (d : Document)
  | table (marks : Marks) (members : List (String × Item))
  /-- an array of tables, which grows by headers in double brackets -/
  | tables (rows : List Item)

namespace Item

def ofMarks (implicit dotted : Bool) : Item := table ⟨implicit, dotted⟩ []

mutual

def toDocument : Item → Document
  | value d => d
  | table _ members => .object (membersToDocument members)
  | tables rows => .list (rowsToDocument rows)

def membersToDocument : List (String × Item) → List (String × Document)
  | [] => []
  | (key, item) :: rest => (key, item.toDocument) :: membersToDocument rest

def rowsToDocument : List Item → List Document
  | [] => []
  | row :: rows => row.toDocument :: rowsToDocument rows

end

/-- puts a member in the place of the one with its key, or after all others -/
def setMember (key : String) (item : Item) : List (String × Item) → List (String × Item)
  | [] => [(key, item)]
  | (k, old) :: rest => if k == key then (k, item) :: rest else (k, old) :: setMember key item rest

/-- changes the table that a path leads to, making the tables on the way; the last row stands for an
array of tables.  A dotted path may not enter a table that has been opened. -/
def editAt (dotted : Bool) (f : Item → Option Item) : List String → Item → Option Item
  | [], item => f item
  | key :: path, table marks members =>
    match members.lookup key with
    | none => do
      let child ← editAt dotted f path (ofMarks true dotted)
      return table marks (setMember key child members)
    | some (table inner innerMembers) =>
      if dotted && !inner.implicit then none
      else do
        let child ← editAt dotted f path (table inner innerMembers)
        return table marks (setMember key child members)
    | some (tables rows) => do
      let child ← editAt dotted f path (← rows.getLast?)
      return table marks (setMember key (tables (rows.dropLast ++ [child])) members)
    | some (value _) => none
  | _, _ => none

/-- gives a key its first value -/
def assignHere (isDotted : Bool) (key : String) (d : Document) : Item → Option Item
  | table marks members =>
    if marks.dotted != isDotted || (members.lookup key).isSome then none
    else some (table marks (setMember key (value d) members))
  | _ => none

def assign (path : List String) (key : String) (d : Document) (item : Item) : Option Item :=
  editAt true (assignHere (!path.isEmpty) key d) path item

/-- opens a table that is new or was only on the way to others -/
def openHere (key : String) : Item → Option Item
  | table marks members =>
    match members.lookup key with
    | none => some (table marks (setMember key (ofMarks false false) members))
    | some (table inner innerMembers) =>
      if inner.implicit && !inner.dotted then
        some (table marks (setMember key (table ⟨false, false⟩ innerMembers) members))
      else none
    | _ => none
  | _ => none

/-- opens a new row of an array of tables -/
def openRowHere (key : String) : Item → Option Item
  | table marks members =>
    match members.lookup key with
    | none => some (table marks (setMember key (tables [ofMarks false false]) members))
    | some (tables rows) =>
      some (table marks (setMember key (tables (rows ++ [ofMarks false false])) members))
    | _ => none
  | _ => none

end Item

end DegreeProgress.Toml
