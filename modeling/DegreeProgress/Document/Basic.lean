import DegreeProgress.Decimal.Binary
import DegreeProgress.Sorted.Map

/-!
# Documents

The tree that a data file is read as, and reading and writing domain values as such trees.  A
structure is written as named fields; a field may have a value that stands in when it is left out.
-/

namespace DegreeProgress

/-- what the entry of a map is known by -/
inductive EntryKey where
  | name (name : String)
  /-- the place of a field among those of a structure, counted from 0 -/
  | index (n : Nat)
  /-- what no field is known by -/
  | other
  deriving DecidableEq

inductive Document where
  | null
  | bool (value : Bool)
  | integer (value : Int)
  | real (value : Float)
  | text (value : String)
  | list (items : List Document)
  | object (members : List (String × Document))
  /-- a map whose keys need not be texts -/
  | entries (entries : List (EntryKey × Document))
  /-- well written, but nothing that a field may be: a date, a single character, an option -/
  | foreign
  /-- well written, but it stands for no value: a number out of range, a text with half a character,
  or nested too deep -/
  | malformed
  deriving Inhabited

/-- how a document shows structure -/
inductive Dialect where
  /-- a structure is an object, or a list of its fields in order; an option is its value or null -/
  | plain
  /-- as in `plain`, but a list of fields may go on after the last one -/
  | loose
  deriving DecidableEq

/-- reading a value from a document -/
class Decode (α : Type) where
  decode : Dialect → Document → Option α

/-- writing a value as a document, in the plain dialect -/
class Encode (α : Type) where
  encode : α → Document

export Decode (decode)
export Encode (encode)

namespace Document

/-! ### whole documents -/

mutual

/-- no part of the document is malformed -/
def isSound : Document → Bool
  | malformed => false
  | list items => allSound items
  | object members => membersSound members
  | entries es => entriesSound es
  | null | bool _ | integer _ | real _ | text _ | foreign => true

def allSound : List Document → Bool
  | [] => true
  | d :: ds => d.isSound && allSound ds

def membersSound : List (String × Document) → Bool
  | [] => true
  | (_, d) :: rest => d.isSound && membersSound rest

def entriesSound : List (EntryKey × Document) → Bool
  | [] => true
  | (_, d) :: rest => d.isSound && entriesSound rest

end

mutual

/-- how many levels the document has -/
def levels : Document → Nat
  | list items => levelsOf items + 1
  | object members => memberLevels members + 1
  | entries es => entryLevels es + 1
  | null | bool _ | integer _ | real _ | text _ | foreign | malformed => 1

def levelsOf : List Document → Nat
  | [] => 0
  | d :: ds => Nat.max d.levels (levelsOf ds)

def memberLevels : List (String × Document) → Nat
  | [] => 0
  | (_, d) :: rest => Nat.max d.levels (memberLevels rest)

def entryLevels : List (EntryKey × Document) → Nat
  | [] => 0
  | (_, d) :: rest => Nat.max d.levels (entryLevels rest)

end

/-! ### fields -/

/-- the field that a key stands for; an index past the last field gives the empty name, which no
field has -/
def fieldName? (known : List String) : EntryKey → Option String
  | .name s => some s
  | .index n => some (known[n]?.getD "")
  | .other => none

/-- the fields of a structure by name; a list gives them in the order of `known` -/
def members? (dialect : Dialect) (known : List String) :
    Document → Option (List (String × Document))
  | object ms => some ms
  | entries es => es.mapM fun e => (fieldName? known e.1).map (·, e.2)
  | list items =>
    if dialect = .plain ∧ known.length < items.length then none else some (known.zip items)
  | _ => none

/-- the fields of a structure, of which those that are known may not repeat; `strict` refuses the
unknown ones, and else they are left out -/
def fields? (dialect : Dialect) (known : List String) (strict : Bool) (d : Document) :
    Option (List (String × Document)) := do
  let ms ← d.members? dialect known
  let named := ms.filter (known.contains ·.1)
  if strict && named.length ≠ ms.length then none
  else if (named.map (·.1)).eraseDups.length ≠ named.length then none
  else return named

/-- a field that may not be left out -/
def required {α : Type} [Decode α] (dialect : Dialect) (fields : List (String × Document))
    (key : String) : Option α :=
  (fields.lookup key).bind (decode dialect)

/-- a field with a value that stands in for it -/
def optional {α : Type} [Decode α] (dialect : Dialect) (fields : List (String × Document))
    (key : String) (missing : α) : Option α :=
  match fields.lookup key with
  | some d => decode dialect d
  | none => some missing

/-! ### names and tags -/

/-- one of several names; it may come with an empty value -/
def name? : Dialect → Document → Option String
  | .plain, text s | .plain, object [(s, null)] => some s
  | .loose, text s | .loose, object [(s, list [])] | .loose, object [(s, object [])] => some s
  | _, _ => none

/-- a name with the value that belongs to it -/
def tagged? : Document → Option (String × Document)
  | object [(tag, d)] => some (tag, d)
  | _ => none

end Document

/-! ### simple values -/

instance : Encode Bool := ⟨.bool⟩
instance : Decode Bool := ⟨fun
  | _, .bool b => some b
  | _, _ => none⟩

instance : Encode String := ⟨.text⟩
instance : Decode String := ⟨fun
  | _, .text s => some s
  | _, _ => none⟩

instance : Encode Nat := ⟨fun n => .integer n⟩
instance : Decode Nat := ⟨fun
  | _, .integer (.ofNat n) => some n
  | _, _ => none⟩

/-- a natural number below a bound -/
def decodeBelow (bound : Nat) (dialect : Dialect) (d : Document) : Option Nat :=
  (decode dialect d).filter (· < bound)

instance : Encode UInt8 := ⟨fun n => .integer n.toNat⟩
instance : Decode UInt8 := ⟨fun dialect d => (decodeBelow UInt8.size dialect d).map UInt8.ofNat⟩

instance : Encode UInt16 := ⟨fun n => .integer n.toNat⟩
instance : Decode UInt16 := ⟨fun dialect d => (decodeBelow UInt16.size dialect d).map UInt16.ofNat⟩

instance : Encode UInt32 := ⟨fun n => .integer n.toNat⟩
instance : Decode UInt32 := ⟨fun dialect d => (decodeBelow UInt32.size dialect d).map UInt32.ofNat⟩

instance : Encode UInt64 := ⟨fun n => .integer n.toNat⟩
instance : Decode UInt64 := ⟨fun dialect d => (decodeBelow UInt64.size dialect d).map UInt64.ofNat⟩

/-- no number is written for infinity and NaN -/
instance : Encode Float := ⟨fun x => if isFinite x then .real x else .null⟩
instance : Decode Float := ⟨fun
  | _, .real x => some x
  | _, .integer n => some (Float.ofInt n)
  | _, _ => none⟩

instance {α : Type} [Encode α] : Encode (Option α) := ⟨fun
  | some x => encode x
  | none => .null⟩
instance {α : Type} [Decode α] : Decode (Option α) := ⟨fun
  | .plain, .null => some none
  | dialect, d => (decode dialect d).map some⟩

instance {α : Type} [Encode α] : Encode (List α) := ⟨fun xs => .list (xs.map encode)⟩
instance {α : Type} [Decode α] : Decode (List α) := ⟨fun
  | dialect, .list items => items.mapM (decode dialect)
  | _, _ => none⟩

/-- a map with text keys; a later entry replaces an earlier one with its key -/
instance {α : Type} [Encode α] : Encode (SortedMap String α) :=
  ⟨fun m => .object (m.entries.map fun e => (e.1, encode e.2))⟩
instance {α : Type} [Decode α] : Decode (SortedMap String α) := ⟨fun
  | dialect, .object members => do
    let entries ← members.mapM fun e => (decode dialect e.2).map (e.1, ·)
    return .ofList entries
  | _, _ => none⟩

/-! ### enumerations -/

/-- finitely many values that documents know by name -/
class Enumeration (α : Type) where
  values : List α
  name : α → String

instance {α : Type} [Enumeration α] : Encode α := ⟨fun x => .text (Enumeration.name x)⟩
instance {α : Type} [Enumeration α] : Decode α := ⟨fun dialect d => do
  let name ← Document.name? dialect d
  Enumeration.values.find? (Enumeration.name · == name)⟩

end DegreeProgress
