import DegreeProgress.Catalog.Compile
import DegreeProgress.Student.Basic

/-!
# Resolved requirements

The requirements that apply to a student, each with the option in force and the overrides of its
slots.  A course kept out of any slot is kept out of the whole requirement, whatever puts it in.
-/

namespace DegreeProgress

inductive Evaluation where
  | selfCheck
  | slots (group : SlotGroup)

/-- the override of one slot -/
structure SlotSelection where
  optIn : SortedSet CourseId
  optOut : SortedSet CourseId
  deriving DecidableEq, Inhabited

def SlotSelection.ofOverride (o : SlotOverride) : SlotSelection := ⟨.ofList o.optIn, .ofList o.optOut⟩

/-- how the counts of a requirement are to be read -/
inductive CountedBy where
  | courses
  | credits
  | selfCheck
  deriving DecidableEq, Inhabited

structure Resolved where
  requirement : Requirement
  evaluation : Evaluation
  chosenOption : Option String
  /-- one for each active slot -/
  overrides : List SlotSelection

namespace Evaluation

def slotList : Evaluation → List Slot
  | selfCheck => []
  | slots group => group.slots

def minSlots : Evaluation → Option Nat
  | selfCheck => none
  | slots group => group.minSlots

def countedBy : Evaluation → CountedBy
  | selfCheck => .selfCheck
  | slots group => match group.counting with
    | .courses => .courses
    | .credits => .credits

end Evaluation

namespace Resolved

def id (r : Resolved) : RequirementId := r.requirement.id
def slots (r : Resolved) : List Slot := r.evaluation.slotList
def doubleCounting (r : Resolved) : Bool := r.requirement.doubleCounting

def isOptedOut (r : Resolved) (c : CourseId) : Bool := r.overrides.any (·.optOut.contains c)

/-- the slots that a course is put into by hand -/
def optedInSlots (r : Resolved) (c : CourseId) : List Nat :=
  if r.isOptedOut c then []
  else (r.overrides.zipIdx.filter (·.1.optIn.contains c)).map (·.2)

def isOptedIn (r : Resolved) (c : CourseId) : Bool :=
  !r.isOptedOut c && r.overrides.any (·.optIn.contains c)

end Resolved

/-! ### resolving -/

/-- the option in force: the chosen one where it exists, and else the first -/
def Requirement.activeChoice? (r : Requirement) (choice : Option String) : Option Choice :=
  (choice.bind r.choice?).or r.choices.head?

def Requirement.evaluate (r : Requirement) (choice : Option String) : Evaluation × Option String :=
  match r.fulfillment with
  | .selfCheck => (.selfCheck, none)
  | .fixed group => (.slots group, none)
  | .options _ => match r.activeChoice? choice with
    | some c => (.slots c.group, some c.name)
    | none => (.selfCheck, none)

/-- the override of each slot; one given for a name goes to the first slot of that name -/
def SlotGroup.selections (g : SlotGroup) (byName : SortedMap String SlotOverride) :
    List SlotSelection :=
  g.slots.zipIdx.map fun (slot, i) =>
    if g.slotIndex? slot.name = some i then
      ((byName.get? slot.name).map SlotSelection.ofOverride).getD default
    else default

def Requirement.resolve (r : Requirement) (choices : OptionChoices) (overrides : Overrides) :
    Resolved :=
  let (evaluation, chosenOption) := r.evaluate (choices.get? r.id)
  let selections := match evaluation with
    | .selfCheck => []
    | .slots group => group.selections ((overrides.get? r.id).getD {})
  ⟨r, evaluation, chosenOption, selections⟩

/-- a requirement without any choice or override -/
def Requirement.resolveDefault (r : Requirement) : Resolved := r.resolve {} {}

/-- keeps the first requirement of every id -/
def distinctById (seen : SortedSet RequirementId) : List Requirement → List Requirement
  | [] => []
  | r :: rs =>
    if r.id ∈ seen then distinctById seen rs else r :: distinctById (seen.insert r.id) rs

namespace Catalog

/-- the requirements of the programs of one kind that the catalog knows -/
def requirementsOf (c : Catalog) (kind : ProgramKind) (codes : List String) : List Requirement :=
  codes.flatMap fun code => ((c.program? kind code).map (·.requirements)).getD []

/-- the requirements of a student's programs, in report order -/
def applicable (c : Catalog) (p : Profile) : List Requirement :=
  (if p.college.isSome then c.university else []) ++
    c.requirementsOf .college p.college.toList ++
    c.requirementsOf .major p.majors ++
    c.requirementsOf .minor p.minors ++
    c.requirementsOf .grad p.gradProgram.toList

def resolve (c : Catalog) (p : Profile) (choices : OptionChoices) (overrides : Overrides) :
    List Resolved :=
  (distinctById {} (c.applicable p)).map (·.resolve choices overrides)

end Catalog

end DegreeProgress
