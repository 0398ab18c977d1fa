import DegreeProgress.Decimal.Binary

/-!
# Amounts

Counts and credits are added up and compared.  `Amount` is what that needs of a number type: the
program takes 64-bit floating-point numbers, and exact rationals take the same sums without
rounding.
-/

namespace DegreeProgress

class Amount (α : Type) where
  /-- the amount that a number stands for -/
  ofFloat : Float → α
  /-- the amount of `n` things -/
  ofCount : Nat → α
  /-- progress before anything counts -/
  zero : α
  /-- the sum of no amounts -/
  emptySum : α
  add : α → α → α
  /-- whether the first amount reaches the second -/
  reaches : α → α → Bool

namespace Amount

variable {α : Type} [Amount α]

/-- amounts added up from left to right -/
def sum (xs : List α) : α := xs.foldl add emptySum

/-- the largest number of courses that is told apart -/
def maxCount : Nat := 4294967295

/-- the amount of `n` courses -/
def ofCourses (n : Nat) : α := ofCount (Nat.min n maxCount)

end Amount

instance : Amount Float where
  ofFloat := id
  ofCount := Float.ofNat
  zero := 0.0
  emptySum := -0.0
  add := (· + ·)
  reaches a b := b ≤ a

/-- exact arithmetic -/
instance : Amount Rat where
  ofFloat := exactValue
  ofCount n := (n : Rat)
  zero := 0
  emptySum := 0
  add := (· + ·)
  reaches a b := b ≤ a

/-- the smaller of two numbers, and the other one where one is NaN -/
def smaller (a b : Float) : Float :=
  if a.isNaN then b else if b < a then b else a

end DegreeProgress
