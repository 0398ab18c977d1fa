import DegreeProgress.Document.Reading

/-!
# TOML texts and keys

The parts of a TOML text below its values: blanks, comments, texts in their four kinds of quotes,
and keys.
-/

namespace DegreeProgress.Toml

/-! ### blanks and comments -/

def isBlankChar (c : Char) : Bool := c == ' ' || c == '\t'

def skipBlanks (cs : List Char) : List Char := cs.dropWhile isBlankChar

/-- a character that may stand in a comment or a text -/
def isPlainChar (c : Char) : Bool := c == '\t' || (0x20 ≤ c.toNat && c.toNat != 0x7F)

def lineBreak? : List Char → Option (List Char)
  | '\n' :: rest => some rest
  | '\r' :: '\n' :: rest => some rest
  | _ => none

/-- skips blanks, line breaks and comments -/
def skipLines (inComment : Bool) : List Char → List Char
  | '\n' :: rest => skipLines false rest
  | '\r' :: '\n' :: rest => skipLines false rest
  | c :: rest =>
    if inComment then if isPlainChar c then skipLines true rest else c :: rest
    else if isBlankChar c then skipLines false rest
    else if c == '#' then skipLines true rest
    else c :: rest
  | [] => []

/-- skips the rest of a line, which may hold a comment only -/
def lineEnd? (cs : List Char) : Option (List Char) :=
  let rest := match skipBlanks cs with
    | '#' :: rest => rest.dropWhile isPlainChar
    | rest => rest
  if rest.isEmpty then some [] else lineBreak? rest

/-! ### texts -/

def escaped? : Char → Option Char
  | '"' => some '"'
  | '\\' => some '\\'
  | 'b' => some '\x08'
  | 'e' => some '\x1b'
  | 'f' => some '\x0c'
  | 'n' => some '\n'
  | 'r' => some '\r'
  | 't' => some '\t'
  | _ => none

/-- how many hexadecimal digits follow the letter of an escape -/
def escapeDigits? : Char → Option Nat
  | 'x' => some 2
  | 'u' => some 4
  | 'U' => some 8
  | _ => none

/-- what follows a backslash -/
def escapeSequence : Reading Char
  | [] => none
  | c :: rest =>
    match escapeDigits? c with
    | some n =>
      if rest.length < n then none else (charOfHex? (rest.take n)).map (·, rest.drop n)
    | none => (escaped? c).map (·, rest)

theorem escapeSequence_length {cs rest : List Char} {e : Char}
    (h : escapeSequence cs = some (e, rest)) : rest.length < cs.length := by
  cases cs with
  | nil => simp [escapeSequence] at h
  | cons c cs =>
    rw [escapeSequence] at h
    split at h
    · split at h
      · simp at h
      · obtain ⟨x, -, hx⟩ := Option.map_eq_some_iff.1 h
        cases hx
        simp only [List.length_drop, List.length_cons]
        omega
    · obtain ⟨x, -, hx⟩ := Option.map_eq_some_iff.1 h
      cases hx
      simp

/-- a text on one line after its opening quote; `done` holds its characters, the last one first -/
def lineText (done : List Char) : Reading String
  | [] => none
  | c :: rest =>
    if c == '"' then some (String.ofList done.reverse, rest)
    else if c == '\\' then
      match h : escapeSequence rest with
      | some (e, after) =>
        have := escapeSequence_length h
        lineText (e :: done) after
      | none => none
    else if isPlainChar c then lineText (c :: done) rest
    else none
termination_by cs => cs.length

/-- a text on one line between apostrophes -/
def literalText : Reading String := fun cs =>
  let (body, rest) := spanOf (fun c => isPlainChar c && c != '\'') cs
  match rest with
  | '\'' :: rest => some (String.ofList body, rest)
  | _ => none

/-- a line break right after the opening quotes does not count -/
def skipFirstBreak (cs : List Char) : List Char := (lineBreak? cs).getD cs

/-- skips blanks and line breaks -/
def skipBreaks : List Char → List Char
  | '\n' :: rest => skipBreaks rest
  | '\r' :: '\n' :: rest => skipBreaks rest
  | c :: rest => if isBlankChar c then skipBreaks rest else c :: rest
  | [] => []

/-- the line break that a backslash at the end of a line takes out, with the blanks around it and
the empty lines after it -/
def foldedBreak? (cs : List Char) : Option (List Char) :=
  (lineBreak? (skipBlanks cs)).map skipBreaks

theorem lineBreak_length {cs rest : List Char} (h : lineBreak? cs = some rest) :
    rest.length < cs.length := by
  rw [lineBreak?.eq_def] at h
  split at h
  · cases h
    exact Nat.lt_succ_self _
  · cases h
    exact Nat.lt_succ_of_lt (Nat.lt_succ_self _)
  · cases h

theorem skipBreaks_length (cs : List Char) : (skipBreaks cs).length ≤ cs.length := by
  fun_induction skipBreaks cs with
  | case1 rest ih => exact Nat.le_succ_of_le ih
  | case2 rest ih => exact Nat.le_succ_of_le (Nat.le_succ_of_le ih)
  | case3 c rest _ _ _ ih => exact Nat.le_succ_of_le ih
  | case4 => exact Nat.le_refl _
  | case5 => exact Nat.le_refl _

theorem foldedBreak_length {cs rest : List Char} (h : foldedBreak? cs = some rest) :
    rest.length < cs.length := by
  obtain ⟨after, ha, rfl⟩ := Option.map_eq_some_iff.1 h
  have h1 := lineBreak_length ha
  have h2 : (skipBlanks cs).length ≤ cs.length := (List.dropWhile_suffix _).length_le
  have h3 := skipBreaks_length after
  omega

/-- a text on many lines after its three opening quotes; up to two more may stand before the three
closing ones -/
def linesText (quote : Char) (done : List Char) : Reading String
  | [] => none
  | '\n' :: rest => linesText quote ('\n' :: done) rest
  | '\r' :: '\n' :: rest => linesText quote ('\n' :: '\r' :: done) rest
  | c :: rest =>
    if c == quote then
      let run := ((c :: rest).takeWhile (· == quote)).length
      if run < 3 then linesText quote (quote :: done) rest
      else
        let n := Nat.min run 5
        some (String.ofList (done.reverse ++ List.replicate (n - 3) quote), (c :: rest).drop n)
    else if c == '\\' && quote == '"' then
      match h : foldedBreak? rest with
      | some after =>
        have := foldedBreak_length h
        linesText quote done after
      | none =>
        match h : escapeSequence rest with
        | some (e, after) =>
          have := escapeSequence_length h
          linesText quote (e :: done) after
        | none => none
    else if isPlainChar c then linesText quote (c :: done) rest
    else none
termination_by cs => cs.length

/-- a text in quotes on one line -/
def quotedText? : List Char → Option (String × List Char)
  | '"' :: rest => lineText [] rest
  | '\'' :: rest => literalText rest
  | _ => none

/-- a text as a value, on one line or on many -/
def text? (cs : List Char) : Option (String × List Char) :=
  match cs with
  | '"' :: '"' :: '"' :: rest => linesText '"' [] (skipFirstBreak rest)
  | '\'' :: '\'' :: '\'' :: rest => linesText '\'' [] (skipFirstBreak rest)
  | cs => quotedText? cs

/-! ### keys -/

def isKeyChar (c : Char) : Bool := c.isAlphanum || c == '_' || c == '-'

def key : Reading String := fun cs =>
  match quotedText? cs with
  | some e => some e
  | none =>
    let (name, rest) := spanOf isKeyChar cs
    if name.isEmpty then none else some (String.ofList name, rest)

/-- up to `most` keys with dots between them -/
def keysUpTo : (most : Nat) → Reading (List String)
  | 0, _ => none
  | most + 1, cs =>
    match key (skipBlanks cs) with
    | none => none
    | some (k, rest) =>
      match skipBlanks rest with
      | '.' :: rest => (keysUpTo most rest).map fun e => (k :: e.1, e.2)
      | rest => some ([k], rest)

/-- how many keys a path may have, and how many brackets may be open in a value -/
def maxLevels : Nat := 80

def keys : Reading (List String) := keysUpTo maxLevels

end DegreeProgress.Toml
