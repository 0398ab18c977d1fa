import DegreeProgress.Decimal.Layout
import DegreeProgress.Document.Basic

/-!
# Writing JSON

Two layouts: everything on one line, and one member a line with two blanks for each level.
-/

namespace DegreeProgress.Json

def hexDigit (n : Nat) : Char := (Nat.digitChar n)

/-- a character inside a quoted text -/
def quotedChar (c : Char) : List Char :=
  if c = '"' then ['\\', '"']
  else if c = '\\' then ['\\', '\\']
  else if c = '\x08' then ['\\', 'b']
  else if c = '\x0c' then ['\\', 'f']
  else if c = '\n' then ['\\', 'n']
  else if c = '\r' then ['\\', 'r']
  else if c = '\t' then ['\\', 't']
  else if c.toNat < 0x20 then ['\\', 'u', '0', '0', hexDigit (c.toNat / 16), hexDigit (c.toNat % 16)]
  else [c]

def quoted (s : String) : String :=
  String.ofList ('"' :: s.toList.flatMap quotedChar ++ ['"'])

/-- the text of a document without parts; what stands for no value is null -/
def scalar : Document → String
  | .bool true => "true"
  | .bool false => "false"
  | .integer n => toString n
  | .real x => AmountLayout.data.write x
  | .text s => quoted s
  | _ => "null"

/-- `parts` between brackets -/
def bracketed (opening closing separator : String) (parts : List String) : String :=
  opening ++ separator.intercalate parts ++ closing

def openBrace : String := "\x7b"
def closeBrace : String := "\x7d"

/-! ### on one line -/

mutual

def compact : Document → String
  | .list items => bracketed "[" "]" "," (compactItems items)
  | .object ms => bracketed openBrace closeBrace "," (compactMembers ms)
  | d => scalar d

def compactItems : List Document → List String
  | [] => []
  | d :: ds => compact d :: compactItems ds

def compactMembers : List (String × Document) → List String
  | [] => []
  | (key, d) :: rest => (quoted key ++ ":" ++ compact d) :: compactMembers rest

end

/-! ### on many lines -/

/-- a line break and the blanks before a line of a level -/
def lineBreak (level : Nat) : String := String.ofList ('\n' :: List.replicate (2 * level) ' ')

/-- parts on lines of their own, one level further in; empty brackets stay closed -/
def indented (opening closing : String) (level : Nat) (parts : List String) : String :=
  if parts.isEmpty then opening ++ closing
  else
    opening ++ lineBreak (level + 1) ++ ("," ++ lineBreak (level + 1)).intercalate parts ++
      lineBreak level ++ closing

mutual

def pretty (level : Nat) : Document → String
  | .list items => indented "[" "]" level (prettyItems (level + 1) items)
  | .object ms => indented openBrace closeBrace level (prettyMembers (level + 1) ms)
  | d => scalar d

def prettyItems (level : Nat) : List Document → List String
  | [] => []
  | d :: ds => pretty level d :: prettyItems level ds

def prettyMembers (level : Nat) : List (String × Document) → List String
  | [] => []
  | (key, d) :: rest => (quoted key ++ ": " ++ pretty level d) :: prettyMembers level rest

end

end DegreeProgress.Json
