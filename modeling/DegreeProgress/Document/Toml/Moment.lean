import DegreeProgress.Document.Reading

/-!
# TOML dates and times

A date, a time of day, or both with `T` or a blank between them and perhaps a distance from
universal time.  No setting is one, so it is only checked that there is such a moment.
-/

namespace DegreeProgress.Toml.Moment

/-- a run of exactly `n` decimal digits -/
def digits (n : Nat) : Reading Nat := fun cs =>
  let (run, rest) := spanDigits cs
  if run.length = n then some (digitsValue run, rest) else none

/-- a number of two digits between two bounds -/
def part (least most : Nat) : Reading Nat := fun cs =>
  (digits 2 cs).filter fun e => least ≤ e.1 && e.1 ≤ most

def isLeapYear (year : Nat) : Bool := year % 4 == 0 && (year % 100 != 0 || year % 400 == 0)

def daysIn (year month : Nat) : Nat :=
  if month = 2 then if isLeapYear year then 29 else 28
  else if month ∈ [4, 6, 9, 11] then 30
  else 31

/-- skips `YYYY-MM-DD` -/
def date? (cs : List Char) : Option (List Char) := do
  let (year, rest) ← digits 4 cs
  let (month, rest) ← part 1 12 (← skipText? "-" rest)
  let (_, rest) ← part 1 (daysIn year month) (← skipText? "-" rest)
  return rest

/-- skips the seconds and their fraction, where there are any; a minute may have a leap second -/
def seconds? : List Char → Option (List Char)
  | ':' :: cs => do
    let (_, rest) ← part 0 60 cs
    match rest with
    | '.' :: rest =>
      let (fraction, rest) := spanDigits rest
      if fraction.isEmpty then none else return rest
    | rest => return rest
  | cs => some cs

/-- skips `HH:MM` -/
def clock? (cs : List Char) : Option (List Char) := do
  let (_, rest) ← part 0 23 cs
  let (_, rest) ← part 0 59 (← skipText? ":" rest)
  return rest

/-- skips a time of day -/
def time? (cs : List Char) : Option (List Char) := do
  seconds? (← clock? cs)

/-- skips the distance from universal time, where there is one -/
def offset? : List Char → Option (List Char)
  | c :: cs =>
    if c == 'Z' || c == 'z' then some cs
    else if c == '+' || c == '-' then clock? cs
    else some (c :: cs)
  | [] => some []

/-- whether all of a text is a date -/
def isDate (cs : List Char) : Bool := (date? cs).any List.isEmpty

/-- whether all of a text is a date or a time -/
def isMoment (cs : List Char) : Bool :=
  match date? cs with
  | some [] => true
  | some (c :: rest) =>
    (c == 'T' || c == 't' || c == ' ') && ((time? rest).bind offset?).any List.isEmpty
  | none => (time? cs).any List.isEmpty

/-- a text that no number starts with, because a dash or a colon follows its first digits -/
def startsMoment (cs : List Char) : Bool :=
  let (run, rest) := spanDigits cs
  !run.isEmpty && (rest.head? == some '-' || rest.head? == some ':')

end DegreeProgress.Toml.Moment
