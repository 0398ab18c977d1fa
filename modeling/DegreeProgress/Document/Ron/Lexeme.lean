import DegreeProgress.Document.Reading
import DegreeProgress.Text.NameChar

/-!
# RON lexemes

The parts of a RON text below its values, numbers apart: blanks and comments, names, and the texts,
characters and bytes in quotes.
-/

namespace DegreeProgress.Ron

/-! ### gaps -/

/-- the blanks that may stand between tokens -/
def isBlankChar (c : Char) : Bool :=
  (0x9 ≤ c.toNat && c.toNat ≤ 0xD) || c == ' ' || c == '\x85' || c == '\u200E' || c == '\u200F' ||
    c == '\u2028' || c == '\u2029'

inductive Gap where
  | blank
  /-- a comment up to the end of its line -/
  | line
  /-- a comment inside `depth` others -/
  | block (depth : Nat)

/-- skips blanks and comments; a comment that is opened has to be closed, and a slash opens one -/
def skipGap : Gap → List Char → Option (List Char)
  | .blank, '/' :: '/' :: rest => skipGap .line rest
  | .blank, '/' :: '*' :: rest => skipGap (.block 0) rest
  | .blank, '/' :: _ => none
  | .blank, c :: rest => if isBlankChar c then skipGap .blank rest else some (c :: rest)
  | .line, c :: rest => skipGap (if c == '\n' then .blank else .line) rest
  | .block depth, '/' :: '*' :: rest => skipGap (.block (depth + 1)) rest
  | .block depth, '*' :: '/' :: rest =>
    skipGap (if depth = 0 then .blank else .block (depth - 1)) rest
  | .block depth, _ :: rest => skipGap (.block depth) rest
  | .block _, [] => none
  | _, [] => some []

def gap (cs : List Char) : Option (List Char) := skipGap .blank cs

/-- skips a comma and the gaps around it, where one comes next -/
def comma (cs : List Char) : Option (Bool × List Char) := do
  match ← gap cs with
  | ',' :: rest => return (true, ← gap rest)
  | rest => return (false, rest)

/-! ### names -/

/-- skips a word that no longer name starts with -/
def skipWord? (word : String) (cs : List Char) : Option (List Char) :=
  (skipText? word cs).filter fun rest => !rest.head?.any isNamePart

/-- a character that a raw name may hold -/
def isRawNamePart (c : Char) : Bool := isNamePart c || c == '.' || c == '+' || c == '-'

/-- how texts, bytes and raw texts start that look like names -/
def literalStarts : List (List Char) :=
  [['b', '"'], ['b', '\''], ['b', 'r', '"'], ['b', 'r', '#'], ['r', '"'], ['r', '#', '"'],
   ['r', '#', '#']]

/-- a name, as long as it goes; after `r#` it may hold points and signs -/
def name : Reading String := fun cs =>
  if literalStarts.any (·.isPrefixOf cs) then none
  else match cs with
    | 'r' :: '#' :: rest =>
      let (text, rest) := spanOf isRawNamePart rest
      if text.isEmpty then none else some (String.ofList text, rest)
    | c :: rest =>
      if isNameStart c then
        let (text, rest) := spanOf isNamePart rest
        some (String.ofList (c :: text), rest)
      else none
    | [] => none

/-- a name where only a name may stand: no point or sign comes right after it -/
def properName : Reading String := fun cs =>
  (name cs).filter fun e => !e.2.head?.any isRawNamePart

/-! ### escapes -/

def escaped? : Char → Option Char
  | '"' => some '"'
  | '\'' => some '\''
  | '\\' => some '\\'
  | 'n' => some '\n'
  | 'r' => some '\r'
  | 't' => some '\t'
  | '0' => some '\x00'
  | _ => none

/-- a byte in two hexadecimal digits -/
def hexByte : Reading UInt8
  | a :: b :: rest =>
    if isDigitOf 16 a && isDigitOf 16 b then some (UInt8.ofNat (digitsValueIn 16 [a, b]), rest)
    else none
  | _ => none

/-- the text of its UTF-8 bytes -/
def textOfBytes? (bytes : List UInt8) : Option String := String.fromUTF8? ⟨bytes.toArray⟩

/-- the only character of the text of some bytes -/
def charOfBytes? (bytes : List UInt8) : Option Char :=
  (textOfBytes? bytes).bind fun s =>
    match s.toList with
    | [c] => some c
    | _ => none

/-- a character by its UTF-8 bytes, at most so many, each in an escape of its own; the mark of the
first escape has been read, and `bytes` are those so far -/
def charByBytes (bytes : List UInt8) : (most : Nat) → Reading Char
  | 0, _ => none
  | most + 1, cs =>
    match hexByte cs with
    | none => none
    | some (b, rest) =>
      match charOfBytes? (bytes ++ [b]) with
      | some c => some (c, rest)
      | none =>
        match rest with
        | '\\' :: 'x' :: rest => charByBytes (bytes ++ [b]) most rest
        | _ => none

/-- a character by its code point, after the opening brace -/
def charByCodePoint : Reading Char := fun cs =>
  let (digits, rest) := spanOf (isDigitOf 16) cs
  match rest with
  | '}' :: rest =>
    if digits.isEmpty || 6 < digits.length then none else (charOfHex? digits).map (·, rest)
  | _ => none

/-- what follows a backslash in a text or a character, where `most` escapes may give the bytes of a
character -/
def charEscape (most : Nat) : Reading Char
  | 'x' :: rest => charByBytes [] most rest
  | 'u' :: '{' :: rest => charByCodePoint rest
  | c :: rest => (escaped? c).map (·, rest)
  | [] => none

/-- what follows a backslash in bytes -/
def byteEscape : Reading UInt8
  | 'x' :: rest => hexByte rest
  | c :: rest => (escaped? c).map fun e => (UInt8.ofNat e.toNat, rest)
  | [] => none

/-- the line break that a backslash at the end of a line takes out, with the blanks after it -/
def foldedBreak? : List Char → Option (List Char)
  | '\n' :: rest => some (rest.dropWhile isBlankChar)
  | '\r' :: '\n' :: rest => some (rest.dropWhile isBlankChar)
  | _ => none

/-! ### texts and bytes -/

/-- what stands before the closing quote, as it is written; the character after a backslash closes
nothing -/
def quotedBody (done : List Char) : Reading (List Char)
  | '\\' :: c :: rest => quotedBody (c :: '\\' :: done) rest
  | '"' :: rest => some (done.reverse, rest)
  | c :: rest => quotedBody (c :: done) rest
  | [] => none

/-- the parts that a body stands for, escapes read by `escape` and other characters by `plain` -/
def bodyParts {α : Type} (escape : Reading α) (plain : Char → α) (done : List α) :
    (fuel : Nat) → List Char → Option (List α)
  | _, [] => some done.reverse
  | 0, _ => none
  | fuel + 1, '\\' :: rest =>
    match foldedBreak? rest with
    | some rest => bodyParts escape plain done fuel rest
    | none =>
      match escape rest with
      | some (part, rest) => bodyParts escape plain (part :: done) fuel rest
      | none => none
  | fuel + 1, c :: rest => bodyParts escape plain (plain c :: done) fuel rest

/-- a text after its opening quote; every part takes a character, so their number bounds the parts -/
def quoted {α : Type} (escape : Reading α) (plain : Char → α) : Reading (List α) := fun cs => do
  let (body, rest) ← quotedBody [] cs
  return (← bodyParts escape plain [] body.length body, rest)

/-- characters without escapes, up to a quote with `marks` after it -/
def rawBody (marks : List Char) (done : List Char) : Reading (List Char)
  | [] => none
  | c :: rest =>
    if c == '"' && marks.isPrefixOf rest then some (done.reverse, rest.drop marks.length)
    else rawBody marks (c :: done) rest

/-- a raw text after its `r` -/
def rawQuoted : Reading (List Char) := fun cs =>
  let (marks, rest) := spanOf (· == '#') cs
  match rest with
  | '"' :: rest => rawBody marks [] rest
  | _ => none

def text : Reading String
  | '"' :: rest => (quoted (charEscape 4) id rest).map fun e => (String.ofList e.1, e.2)
  | 'r' :: rest => (rawQuoted rest).map fun e => (String.ofList e.1, e.2)
  | _ => none

def bytes : Reading (List UInt8)
  | 'b' :: '"' :: rest =>
    let byteEscapes : Reading (List UInt8) := fun cs => (byteEscape cs).map fun e => ([e.1], e.2)
    (quoted byteEscapes String.utf8EncodeChar rest).map fun e => (e.1.flatten, e.2)
  | 'b' :: 'r' :: rest =>
    (rawQuoted rest).map fun e => (e.1.flatMap String.utf8EncodeChar, e.2)
  | _ => none

/-- a single character between apostrophes -/
def character : Reading Char
  | '\'' :: '\\' :: rest =>
    match charEscape 1 rest with
    | some (c, '\'' :: rest) => some (c, rest)
    | _ => none
  | '\'' :: c :: '\'' :: rest => some (c, rest)
  | _ => none

/-- a single byte between apostrophes -/
def byte : Reading UInt8
  | 'b' :: '\'' :: '\\' :: rest =>
    match byteEscape rest with
    | some (b, '\'' :: rest) => some (b, rest)
    | _ => none
  | 'b' :: '\'' :: c :: '\'' :: rest =>
    if isAscii c then some (UInt8.ofNat c.toNat, rest) else none
  | _ => none

end DegreeProgress.Ron
