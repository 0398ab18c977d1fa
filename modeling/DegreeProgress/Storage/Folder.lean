import DegreeProgress.Storage.Path

/-!
# Folders as values

A folder with everything in it, and the file that a path leads to from there.  A path that leaves
the folder leads nowhere.
-/

namespace DegreeProgress

structure Folder where
  /-- the files, each with the names on the way to it; a later one replaces an earlier one -/
  files : List (List String × ByteArray) := []
  /-- the folders inside, each with the names on the way to it -/
  folders : List (List String) := []

namespace Folder

def isFolder (f : Folder) (way : List String) : Bool := way.isEmpty || f.folders.contains way

def file? (f : Folder) (way : List String) : Option ByteArray :=
  (f.files.reverse.find? (·.1 == way)).map (·.2)

/-- all folders on the way to something -/
def around : List String → List (List String)
  | [] | [_] => []
  | name :: names => [name] :: (around names).map (name :: ·)

/-- the names of a path without the pieces that lead nowhere -/
def wayOf (p : Path) : List String :=
  ((slashPieces p.text.toList).filter (!Path.isFiller ·)).map String.ofList

def addFile (f : Folder) (p : Path) (bytes : ByteArray) : Folder where
  files := f.files ++ [(wayOf p, bytes)]
  folders := f.folders ++ around (wayOf p)

def addFolder (f : Folder) (p : Path) : Folder where
  files := f.files
  folders := f.folders ++ around (wayOf p) ++ [wayOf p]

/-- walks from the folder at `way` along pieces of a path to a file -/
def walk (f : Folder) (way : List String) : List (List Char) → Option ByteArray
  | [] => none
  | [piece] =>
    if Path.isFiller piece || piece == ['.', '.'] then none
    else f.file? (way ++ [String.ofList piece])
  | piece :: later =>
    if Path.isFiller piece then f.walk way later
    else if piece == ['.', '.'] then
      if way.isEmpty then none else f.walk way.dropLast later
    else
      let next := way ++ [String.ofList piece]
      if f.isFolder next then f.walk next later else none

/-- the bytes of the file at a path -/
def read? (f : Folder) (p : Path) : Option ByteArray :=
  if p.isAbsolute then none else f.walk [] (slashPieces p.text.toList)

end Folder

end DegreeProgress
