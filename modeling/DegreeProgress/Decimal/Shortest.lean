import DegreeProgress.Decimal.Binary

/-!
# Shortest decimals

The decimal with the fewest digits that reads back as a given binary fraction; of several with
that many digits, the one nearest to it.
-/

namespace DegreeProgress

/-- the number `digits * 10^exponent` -/
structure Decimal where
  digits : Nat
  exponent : Int
  deriving DecidableEq, Repr

namespace Decimal

/-- which of two equally near decimals is taken -/
inductive Tie where
  | even
  | up
  deriving DecidableEq

/-- `(a, b)` with `c * 10^k : x * 2^s = a : b` -/
def scaled (c : Nat) (k : Int) (x : Nat) (s : Int) : Nat × Nat :=
  (c * Nat.pow 10 k.toNat * Nat.pow 2 (-s).toNat,
    x * Nat.pow 2 s.toNat * Nat.pow 10 (-k).toNat)

/-- the numbers that round to a fraction: from `low * 2^s` to `high * 2^s`, around `mid * 2^s`,
with both ends in it when `closed` -/
structure Interval where
  low : Nat
  mid : Nat
  high : Nat
  s : Int
  closed : Bool

def Interval.of (m : Nat) (q : Int) (narrow : Bool) : Interval where
  low := 4 * m - (if narrow then 1 else 2)
  mid := 4 * m
  high := 4 * m + 2
  s := q - 2
  closed := m % 2 == 0

def Interval.contains (i : Interval) (c : Nat) (k : Int) : Bool :=
  let (a, low) := scaled c k i.low i.s
  let (b, high) := scaled c k i.high i.s
  if i.closed then low ≤ a && b ≤ high else low < a && b < high

/-- the neighbours of the middle on the grid of the multiples of `10^k` -/
def Interval.below (i : Interval) (k : Int) : Nat :=
  let (step, mid) := scaled 1 k i.mid i.s
  mid / step

/-- the nearer of the grid points `c` and `c + 1` to the middle -/
def Interval.nearer (i : Interval) (tie : Tie) (c : Nat) (k : Int) : Nat :=
  let (a, mid) := scaled (2 * c + 1) k (2 * i.mid) i.s
  if mid < a then c
  else if a < mid then c + 1
  else match tie with
    | .even => if c % 2 = 0 then c else c + 1
    | .up => c + 1

/-- the point of the grid of `10^k` that stands for the interval, if the grid has one in it -/
def Interval.onGrid? (i : Interval) (tie : Tie) (k : Int) : Option Nat :=
  let c := i.below k
  match i.contains c k, i.contains (c + 1) k with
  | true, true => some (i.nearer tie c k)
  | true, false => some c
  | false, true => some (c + 1)
  | false, false => none

/-- tries finer and finer grids -/
def search (i : Interval) (tie : Tie) : (fuel : Nat) → Int → Decimal
  | 0, k => ⟨i.below k, k⟩
  | fuel + 1, k =>
    match i.onGrid? tie k with
    | some c => ⟨c, k⟩
    | none => search i tie fuel (k - 1)

/-- an exponent `k` with `m * 2^q < 10^k`, at most two too large -/
def topExponent (m : Nat) (q : Int) : Int :=
  let size := (Nat.log2 m : Int) + 1 + q
  if 0 ≤ size then size * 30103 / 100000 + 1 else size * 30102 / 100000 + 1

/-- the shortest decimal for the positive fraction `m * 2^q` -/
def shortest (tie : Tie) (m : Nat) (q : Int) (narrow : Bool) : Decimal :=
  search (.of m q narrow) tie 24 (topExponent m q)

end Decimal

end DegreeProgress
