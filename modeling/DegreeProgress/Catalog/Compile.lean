import DegreeProgress.Catalog.Declared
import DegreeProgress.Sorted.Set

/-!
# Catalogs

Compiling a declared catalog.  Requirement ids are formed from the kind and code of the program and
the name of the requirement; the first fault in catalog order ends the compilation.
-/

namespace DegreeProgress

/-- the requirement, and the option of it, in which a fault lies -/
structure CatalogPlace where
  requirement : RequirementId
  option : Option String := none
  deriving DecidableEq

def CatalogPlace.text (p : CatalogPlace) : String :=
  let requirement := s!"requirement `{p.requirement.text}`"
  match p.option with
  | some option => s!"{requirement} option `{option}`"
  | none => requirement

inductive CatalogError where
  | duplicateRequirement (id : RequirementId)
  | slotArity (place : CatalogPlace) (checkers minCounts names : Nat)
  | noSlots (place : CatalogPlace)
  | invalidMinCount (place : CatalogPlace) (slot : String)
  | invalidMinSlots (place : CatalogPlace) (min slots : Nat)
  | checker (place : CatalogPlace) (slot : String) (error : CheckerError)
  | noOptions (place : CatalogPlace)
  | duplicateOption (place : CatalogPlace) (option : String)
  deriving DecidableEq

def CatalogError.message : CatalogError → String
  | duplicateRequirement id => s!"duplicate requirement id `{id.text}`"
  | slotArity place checkers minCounts names =>
    s!"{place.text}: {checkers} checkers, {minCounts} minimum counts, {names} slot names"
  | noSlots place => s!"{place.text}: no slots declared"
  | invalidMinCount place slot => s!"{place.text}: slot `{slot}` has an invalid minimum count"
  | invalidMinSlots place min slots =>
    s!"{place.text}: min_number_of_slots {min} is not within 1..={slots}"
  | checker place slot error => s!"{place.text}: slot `{slot}`: {error.message}"
  | noOptions place => s!"{place.text}: toggleable requirement has no options"
  | duplicateOption place option => s!"{place.text}: duplicate option `{option}`"

structure Catalog where
  university : List Requirement
  colleges : SortedMap String Program
  majors : SortedMap String Program
  minors : SortedMap String Program
  grad : SortedMap String Program

namespace Catalog

/-- the program code of requirements that every college shares -/
def universityCode : String := "UNI"

/-- the programs of one kind, by code -/
def programs (c : Catalog) : ProgramKind → SortedMap String Program
  | .college => c.colleges
  | .major => c.majors
  | .minor => c.minors
  | .grad => c.grad

def program? (c : Catalog) (kind : ProgramKind) (code : String) : Option Program :=
  (c.programs kind).get? code

def kinds : List ProgramKind := [.college, .major, .minor, .grad]

/-- all requirements: the university's, then kind by kind and program by program -/
def requirements (c : Catalog) : List Requirement :=
  c.university ++ kinds.flatMap fun kind => (c.programs kind).values.flatMap (·.requirements)

/-! ### slots -/

def compileSlot (place : CatalogPlace) (source : CheckerSource) (minCount : Float)
    (name : String) : Except CatalogError Slot :=
  if !isFiniteNonneg minCount then .error (.invalidMinCount place name)
  else match Checker.compile source with
    | .ok checker => .ok ⟨name, checker, minCount⟩
    | .error e => .error (.checker place name e)

def compileSlotList (place : CatalogPlace) :
    List CheckerSource → List Float → List String → Except CatalogError (List Slot)
  | source :: sources, minCount :: minCounts, name :: names => do
    let slot ← compileSlot place source minCount name
    let slots ← compileSlotList place sources minCounts names
    return slot :: slots
  | _, _, _ => .ok []

def compileSlots (place : CatalogPlace) (counting : Counting) (d : Declared.Slots) :
    Except CatalogError SlotGroup := do
  let count := d.checkers.length
  if d.minCounts.length ≠ count ∨ d.names.length ≠ count then
    throw (.slotArity place count d.minCounts.length d.names.length)
  if count = 0 then throw (.noSlots place)
  if let some min := d.minSlots then
    if min = 0 ∨ count < min then throw (.invalidMinSlots place min count)
  let slots ← compileSlotList place d.checkers d.minCounts d.names
  return ⟨counting, d.progress, slots, d.minSlots⟩

/-! ### requirements -/

/-- compiles the options after those named `seen` -/
def compileChoices (id : RequirementId) (seen : List String) :
    List Declared.Choice → Except CatalogError (List Choice)
  | [] => .ok []
  | d :: ds => do
    if d.name ∈ seen then throw (.duplicateOption ⟨id, none⟩ d.name)
    let group ← compileSlots ⟨id, some d.name⟩ d.counting d.slots
    let choices ← compileChoices id (d.name :: seen) ds
    return ⟨d.name, d.description, group⟩ :: choices

def compileFulfillment (id : RequirementId) (d : Declared.Requirement) :
    Except CatalogError Fulfillment :=
  match d.fulfilledBy with
  | .selfCheck => .ok .selfCheck
  | .courses => .fixed <$> compileSlots ⟨id, none⟩ .courses d.slots
  | .credits => .fixed <$> compileSlots ⟨id, none⟩ .credits d.slots
  | .toggleable =>
    if d.choices.isEmpty then .error (.noOptions ⟨id, none⟩)
    else .options <$> compileChoices id [] d.choices

def requirementId (kind : ProgramKind) (code name : String) : RequirementId :=
  ⟨s!"{kind.name}-{code}-{name}"⟩

def compileRequirement (kind : ProgramKind) (code : String) (d : Declared.Requirement) :
    Except CatalogError Requirement := do
  let id := requirementId kind code d.name
  let fulfillment ← compileFulfillment id d
  return ⟨id, d.name, d.description, d.source, kind, code, fulfillment, d.doubleCounting⟩

/-- compiles requirements whose ids may not be in `seen`, and adds their ids to it -/
def compileRequirements (kind : ProgramKind) (code : String) (seen : SortedSet RequirementId) :
    List Declared.Requirement → Except CatalogError (List Requirement × SortedSet RequirementId)
  | [] => .ok ([], seen)
  | d :: ds => do
    let id := requirementId kind code d.name
    if id ∈ seen then throw (.duplicateRequirement id)
    let r ← compileRequirement kind code d
    let (rs, seen) ← compileRequirements kind code (seen.insert id) ds
    return (r :: rs, seen)

/-! ### programs -/

def compilePrograms (kind : ProgramKind) (seen : SortedSet RequirementId) :
    List (String × Declared.Program) →
      Except CatalogError (List (String × Program) × SortedSet RequirementId)
  | [] => .ok ([], seen)
  | (code, d) :: ds => do
    let (requirements, seen) ← compileRequirements kind code seen d.requirements
    let (programs, seen) ← compilePrograms kind seen ds
    return ((code, ⟨code, d.name, d.schools, requirements⟩) :: programs, seen)

def compile (d : Declared.Catalog) : Except CatalogError Catalog := do
  let (university, seen) ← compileRequirements .college universityCode {} d.university
  let (colleges, seen) ← compilePrograms .college seen d.colleges.entries
  let (majors, seen) ← compilePrograms .major seen d.majors.entries
  let (minors, seen) ← compilePrograms .minor seen d.minors.entries
  let (grad, _) ← compilePrograms .grad seen d.grad.entries
  return ⟨university, .ofList colleges, .ofList majors, .ofList minors, .ofList grad⟩

end Catalog

end DegreeProgress
