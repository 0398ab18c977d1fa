import DegreeProgress.Audit.Statistics

/-!
# Reports

The outcome of an audit: the requirements of each program with their safe and dangerous progress.
-/

namespace DegreeProgress

/-- the two ends between which the true value lies -/
structure Bounds (β : Type) where
  safe : β
  dangerous : β

/-- what a report says about a requirement apart from its progress -/
structure Summary where
  id : RequirementId
  name : String
  description : String
  source : String
  programKind : ProgramKind
  programCode : String
  countedBy : CountedBy
  chosenOption : Option String
  slotNames : List String
  minCounts : List Float
  minSlots : Option Nat
  doubleCounting : Bool
  deriving Inhabited

structure ReportEntry (α : Type) where
  requirement : Summary
  fulfillment : Bounds (Statistics α)

structure ReportGroup (α : Type) where
  kind : ProgramKind
  /-- the program code -/
  code : String
  entries : List (ReportEntry α)

structure Report (α : Type) where
  groups : List (ReportGroup α)
  doubleCounted : SortedSet UniqueId

def Resolved.summary (r : Resolved) : Summary where
  id := r.id
  name := r.requirement.name
  description := r.requirement.description
  source := r.requirement.source
  programKind := r.requirement.programKind
  programCode := r.requirement.programCode
  countedBy := r.evaluation.countedBy
  chosenOption := r.chosenOption
  slotNames := r.slots.map (·.name)
  minCounts := r.slots.map (·.minCount)
  minSlots := r.evaluation.minSlots
  doubleCounting := r.doubleCounting

namespace Report

variable {α : Type}

def entries (r : Report α) : List (ReportEntry α) := r.groups.flatMap (·.entries)

/-- the first entry of an id -/
def entry? (r : Report α) (id : RequirementId) : Option (ReportEntry α) :=
  r.entries.find? (·.requirement.id == id)

def entryCount (r : Report α) : Nat := r.entries.length

end Report

end DegreeProgress
