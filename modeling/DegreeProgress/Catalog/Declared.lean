import DegreeProgress.Catalog.Requirement
import DegreeProgress.Sorted.Map

/-!
# Declared catalogs

A requirement catalog as its data file states it, before any of it is checked.
-/

namespace DegreeProgress.Declared

/-- slots as three lists of one length -/
structure Slots where
  checkers : List CheckerSource := []
  minCounts : List Float := []
  names : List String := []
  progress : Progress := .anyCanCount
  minSlots : Option Nat := none
  deriving Inhabited

structure Choice where
  name : String
  description : String
  counting : Counting
  slots : Slots
  deriving Inhabited

inductive FulfilledBy where
  | courses
  | credits
  | selfCheck
  /-- one of several options -/
  | toggleable
  deriving DecidableEq, Inhabited

structure Requirement where
  name : String
  description : String
  source : String
  fulfilledBy : FulfilledBy
  slots : Slots
  choices : List Choice
  doubleCounting : Bool
  deriving Inhabited

structure Program where
  name : String
  schools : List String
  requirements : List Requirement
  deriving Inhabited

structure Catalog where
  university : List Requirement
  colleges : SortedMap String Program
  majors : SortedMap String Program
  minors : SortedMap String Program
  grad : SortedMap String Program
  deriving Inhabited

end DegreeProgress.Declared
