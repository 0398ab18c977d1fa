import DegreeProgress.Audit.Allocation
import DegreeProgress.Audit.Synthesized

/-!
# Audits

From a catalog, an exam table and a student to the report.
-/

namespace DegreeProgress

structure AuditOptions where
  totalCredits : CreditPolicy
  swimTest : Bool

instance : Inhabited AuditOptions := ⟨⟨default, true⟩⟩

structure AuditOutcome (α : Type) where
  report : Report α
  courses : List Course
  allocation : Allocation

namespace Audit

/-- the codes of a profile for the programs of one kind -/
def codes (p : Profile) : ProgramKind → List String
  | .college => p.college.toList
  | .major => p.majors
  | .minor => p.minors
  | .grad => p.gradProgram.toList

/-- the programs that get a group: the college, and the other programs that the catalog knows;
each code once -/
def groupKeys (catalog : Catalog) (p : Profile) : List (ProgramKind × String) :=
  (Catalog.kinds.flatMap fun kind =>
    ((codes p kind).filter fun code =>
      kind == .college || (catalog.program? kind code).isSome).map (kind, ·)).eraseDups

/-- whether a requirement is shown in a group; the university's are shown with the college's -/
def isShownIn (key : ProgramKind × String) (r : Requirement) : Bool :=
  key.1 == r.programKind && (key.1 == .college || key.2 == r.programCode)

section
variable {α : Type} [Amount α]

def entry (a : Allocation) (r : Resolved) : ReportEntry α where
  requirement := r.summary
  fulfillment := ⟨.of r (a.safe.coursesOf r.id), .of r (a.dangerous.coursesOf r.id)⟩

/-- the entries at the head of the college's group -/
def collegeEntries (options : AuditOptions) (p : Profile) (courses : List Course)
    (college : String) : List (ReportEntry α) :=
  (options.totalCredits.entry? college courses).toList ++
    if options.swimTest then [SwimTest.entry college courses p.tookSwimTest] else []

/-- the group of a program: every requirement is shown in the first group that fits it -/
def group (options : AuditOptions) (p : Profile) (courses : List Course) (a : Allocation)
    (requirements : List Resolved) (keys : List (ProgramKind × String))
    (key : ProgramKind × String) : ReportGroup α where
  kind := key.1
  code := key.2
  entries :=
    (if key.1 == .college then collegeEntries options p courses key.2 else []) ++
      (requirements.filter fun r =>
        keys.find? (isShownIn · r.requirement) == some key).map (entry a)

/-- the report in the arithmetic `α`, with what it was computed from -/
def run (α : Type) [Amount α] (options : AuditOptions) (catalog : Catalog) (table : ExamTable)
    (s : Student) : AuditOutcome α :=
  let courses := s.courses table
  let requirements := catalog.resolve s.profile s.choices s.overrides
  let allocation := Allocation.of requirements courses
  let keys := groupKeys catalog s.profile
  { report := {
      groups := keys.map (group options s.profile courses allocation requirements keys)
      doubleCounted := allocation.doubleCounted }
    courses
    allocation }

end

end Audit

end DegreeProgress
