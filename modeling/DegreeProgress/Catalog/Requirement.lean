import DegreeProgress.Amount
import DegreeProgress.Course.Checker

/-!
# Requirements

A compiled requirement: the slots that courses fill, or the options that a student chooses from.
-/

namespace DegreeProgress

/-- the kinds of programs that have requirements -/
inductive ProgramKind where
  | college
  | major
  | minor
  | grad
  deriving DecidableEq, Inhabited

def ProgramKind.name : ProgramKind → String
  | college => "College"
  | major => "Major"
  | minor => "Minor"
  | grad => "Grad"

/-- what a slot counts -/
inductive Counting where
  | courses
  | credits
  deriving DecidableEq, Inhabited

/-- how the courses of a slot count -/
inductive Progress where
  /-- every row of a course counts -/
  | anyCanCount
  /-- the courses of a slot count once together, and credits once for each catalog course -/
  | everyCourseNeeded
  deriving DecidableEq, Inhabited

structure Slot where
  name : String
  checker : Checker
  minCount : Float

structure SlotGroup where
  counting : Counting
  progress : Progress
  slots : List Slot
  /-- how many slots have to be satisfied, where not all of them -/
  minSlots : Option Nat

namespace SlotGroup

/-- the minimum counts from the smallest up -/
def sortedMinimums (g : SlotGroup) : List Float :=
  (g.slots.map (·.minCount)).mergeSort fun a b => orderKey a ≤ orderKey b

/-- the progress that the group asks for: the minimums of all slots, or of the cheapest ones -/
def required (α : Type) [Amount α] (g : SlotGroup) : α :=
  match g.minSlots with
  | some needed => Amount.sum ((g.sortedMinimums.take needed).map Amount.ofFloat)
  | none => Amount.sum ((g.slots.map (·.minCount)).map Amount.ofFloat)

/-- the first slot of a name -/
def slotIndex? (g : SlotGroup) (name : String) : Option Nat :=
  g.slots.findIdx? (·.name == name)

end SlotGroup

/-- one way to fulfill a requirement -/
structure Choice where
  name : String
  description : String
  group : SlotGroup

inductive Fulfillment where
  /-- confirmed by hand -/
  | selfCheck
  | fixed (group : SlotGroup)
  | options (choices : List Choice)

structure Requirement where
  id : RequirementId
  name : String
  description : String
  /-- where the requirement is laid down -/
  source : String
  programKind : ProgramKind
  programCode : String
  fulfillment : Fulfillment
  /-- whether its courses may count for other requirements too -/
  doubleCounting : Bool

namespace Requirement

def choices (r : Requirement) : List Choice :=
  match r.fulfillment with
  | .options choices => choices
  | _ => []

def choice? (r : Requirement) (name : String) : Option Choice :=
  r.choices.find? (·.name == name)

end Requirement

structure Program where
  code : String
  name : String
  schools : List String
  requirements : List Requirement

end DegreeProgress
