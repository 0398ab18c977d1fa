import DegreeProgress.Student.Exam

/-!
# Students

What is known about a student: the plan by semesters, the programs and exams, the options chosen
and the courses moved into or out of slots by hand.
-/

namespace DegreeProgress

inductive Season where
  | winter
  | spring
  | summer
  | fall
  deriving DecidableEq, Inhabited

structure PlannedCourse where
  uniqueId : UInt64
  courseId : CourseId
  code : String
  credits : Float
  deriving Inhabited

/-- an entry of a plan; a placeholder never counts for anything -/
inductive PlanEntry where
  | course (course : PlannedCourse)
  | placeholder (uniqueId : UInt64) (name : String)
  deriving Inhabited

structure Semester where
  year : UInt16
  season : Season
  entries : List PlanEntry
  deriving Inhabited

structure Profile where
  /-- none for a student of a graduate program only -/
  college : Option String
  majors : List String
  minors : List String
  gradProgram : Option String
  exams : List ExamRecord
  tookSwimTest : Bool
  deriving Inhabited

/-- the courses put into a slot by hand, and those kept out of its requirement -/
structure SlotOverride where
  optIn : List CourseId
  optOut : List CourseId
  deriving DecidableEq, Inhabited

/-- the chosen option of requirements -/
abbrev OptionChoices : Type := SortedMap RequirementId String

/-- overrides by requirement and slot name -/
abbrev Overrides : Type := SortedMap RequirementId (SortedMap String SlotOverride)

structure Student where
  semesters : List Semester
  profile : Profile
  choices : OptionChoices
  overrides : Overrides
  deriving Inhabited

/-- the course that a plan entry stands for -/
def PlanEntry.taken? : PlanEntry → Option Course
  | course c => some ⟨.numeric c.uniqueId, c.courseId, c.code, c.credits⟩
  | placeholder _ _ => none

/-- the courses that count: those of the plan, then those from exams -/
def Student.courses (s : Student) (table : ExamTable) : List Course :=
  (s.semesters.flatMap (·.entries)).filterMap PlanEntry.taken? ++
    table.convert s.profile.college s.profile.majors s.profile.exams

end DegreeProgress
