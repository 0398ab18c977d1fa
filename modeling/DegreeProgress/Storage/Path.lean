import DegreeProgress.Text.Words

/-!
# Paths

A path is a text whose names are separated by slashes.  Nothing is ever normalised: the functions
here read a path or cut and extend its text.
-/

namespace DegreeProgress

structure Path where
  text : String
  deriving DecidableEq, Inhabited

/-- the runs of characters between slashes, empty ones included -/
def slashPieces : List Char → List (List Char)
  | [] => [[]]
  | c :: cs =>
    if c = '/' then [] :: slashPieces cs
    else match slashPieces cs with
      | [] => [[c]]
      | piece :: later => (c :: piece) :: later

/-- the pieces with slashes between them -/
def joinPieces (pieces : List (List Char)) : List Char := List.intercalate ['/'] pieces

namespace Path

inductive Part where
  | root
  /-- the dot that a path may start with -/
  | here
  | up
  | name (text : String)
  deriving DecidableEq

def Part.text : Part → String
  | root => "/"
  | here => "."
  | up => ".."
  | name text => text

def isAbsolute (p : Path) : Bool := p.text.toList.head? == some '/'

/-- a piece that leads nowhere -/
def isFiller (piece : List Char) : Bool := piece.isEmpty || piece == ['.']

def partOf (piece : List Char) : Part :=
  if piece == ['.', '.'] then .up else .name (String.ofList piece)

/-- the parts of a path; a dot counts at the start only -/
def parts (p : Path) : List Part :=
  let pieces := slashPieces p.text.toList
  let start := if p.isAbsolute then [Part.root] else if pieces.head? == some ['.'] then [.here] else []
  start ++ (pieces.filter (!isFiller ·)).map partOf

/-! ### extension -/

/-- what follows the last dot of a name, where something stands before that dot -/
def extensionOf (name : List Char) : Option (List Char) :=
  match name.reverse.dropWhile (· != '.') with
  | [] | [_] => none
  | _ => some (name.reverse.takeWhile (· != '.')).reverse

def extension? (p : Path) : Option String :=
  match p.parts.getLast? with
  | some (.name text) => (extensionOf text.toList).map String.ofList
  | _ => none

/-! ### other paths -/

def dropFillers (pieces : List (List Char)) : List (List Char) :=
  (pieces.reverse.dropWhile isFiller).reverse

/-- the start of a path that is no name, and the rest of it -/
def splitStart : List Char → List Char × List Char
  | '/' :: rest => (['/'], rest)
  | ['.'] => (['.'], [])
  | '.' :: '/' :: rest => (['.'], '/' :: rest)
  | cs => ([], cs)

/-- the path without its last part; the root and the empty path have none -/
def parent? (p : Path) : Option Path :=
  let (start, body) := splitStart p.text.toList
  match (dropFillers (slashPieces body)).reverse with
  | [] => if start == ['.'] then some ⟨""⟩ else none
  | _ :: earlier => some ⟨String.ofList (start ++ joinPieces (dropFillers earlier.reverse))⟩

/-- the path `q` seen from the folder `p` -/
def join (p q : Path) : Path :=
  if q.isAbsolute then q
  else if p.text.isEmpty || p.text.toList.getLast? == some '/' then ⟨p.text ++ q.text⟩
  else ⟨p.text ++ "/" ++ q.text⟩

/-! ### limits -/

/-- the longest path, in bytes -/
def maxBytes : Nat := 4096

/-- the longest part of a path, in bytes -/
def maxPartBytes : Nat := 255

def isTooLong (p : Path) : Bool := maxBytes < p.text.utf8ByteSize

def hasLongPart (p : Path) : Bool := p.parts.any (maxPartBytes < ·.text.utf8ByteSize)

end Path

end DegreeProgress
