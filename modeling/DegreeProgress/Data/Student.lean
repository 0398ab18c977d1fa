import DegreeProgress.Data.Course
import DegreeProgress.Student.Basic

/-!
# Students and exam tables as documents

The forms of the student file and of the exam table.  An entry of a plan is read as a course when
all fields of a course are there, and else as a placeholder.
-/

namespace DegreeProgress

/-! ### exams -/

instance : Enumeration ExamProgram where
  values := [.ap, .ib]
  name := ExamProgram.name

namespace ExamRecord

def fieldNames : List String := ["type", "subject", "score"]

instance : Encode ExamRecord := ⟨fun e => .object
  [("type", encode e.program), ("subject", encode e.subject), ("score", encode e.score)]⟩

instance : Decode ExamRecord := ⟨fun dialect d => do
  let fs ← d.fields? dialect fieldNames false
  return {
    program := ← Document.required dialect fs "type"
    subject := ← Document.required dialect fs "subject"
    score := ← Document.required dialect fs "score" }⟩

instance : HasForm ExamRecord := ⟨.record "ExamRecord" <|
  fieldNames.zip [formOf ExamProgram, formOf String, formOf UInt32]⟩

end ExamRecord

namespace ExamRule

def fieldNames : List String :=
  ["name", "minimum_score", "credits", "course_equivalents", "majors_excluded"]

instance : Encode ExamRule := ⟨fun r => .object
  [("name", encode r.name), ("minimum_score", encode r.minimumScore),
   ("credits", encode r.credits), ("course_equivalents", encode r.equivalents),
   ("majors_excluded", encode r.excludedMajors)]⟩

instance : Decode ExamRule := ⟨fun dialect d => do
  let fs ← d.fields? dialect fieldNames false
  return {
    name := ← Document.required dialect fs "name"
    minimumScore := ← Document.required dialect fs "minimum_score"
    credits := ← Document.required dialect fs "credits"
    equivalents := ← Document.optional dialect fs "course_equivalents" {}
    excludedMajors := ← Document.optional dialect fs "majors_excluded" [] }⟩

instance : HasForm ExamRule := ⟨.record "ExamRule" <|
  fieldNames.zip [formOf String, formOf UInt32, formOf Float,
    formOf (SortedMap String (List CourseId)), formOf (List String)]⟩

end ExamRule

namespace ExamTable

def fieldNames : List String := ["AP", "IB"]

instance : Encode ExamTable := ⟨fun t => .object [("AP", encode t.ap), ("IB", encode t.ib)]⟩

instance : Decode ExamTable := ⟨fun dialect d => do
  let fs ← d.fields? dialect fieldNames false
  return {
    ap := ← Document.optional dialect fs "AP" []
    ib := ← Document.optional dialect fs "IB" [] }⟩

instance : HasForm ExamTable := ⟨.record "ExamCreditTable" <|
  fieldNames.zip [formOf (List ExamRule), formOf (List ExamRule)]⟩

end ExamTable

/-! ### plans -/

instance : Enumeration Season where
  values := [.winter, .spring, .summer, .fall]
  name
    | .winter => "Winter"
    | .spring => "Spring"
    | .summer => "Summer"
    | .fall => "Fall"

namespace PlannedCourse

instance : Encode PlannedCourse := ⟨fun c => .object
  [("unique_id", encode c.uniqueId), ("course_id", encode c.courseId), ("code", encode c.code),
   ("credits", encode c.credits)]⟩

instance : Decode PlannedCourse := ⟨fun dialect d => do
  let fs ← d.fields? dialect Course.fieldNames false
  return {
    uniqueId := ← Document.required dialect fs "unique_id"
    courseId := ← Document.required dialect fs "course_id"
    code := ← Document.required dialect fs "code"
    credits := ← Document.required dialect fs "credits" }⟩

end PlannedCourse

namespace PlanEntry

/-- the fields of a placeholder -/
def fieldNames : List String := ["unique_id", "name"]

def placeholder? (d : Document) : Option PlanEntry := do
  let fs ← d.fields? .plain fieldNames false
  return .placeholder (← Document.required .plain fs "unique_id")
    (← Document.required .plain fs "name")

instance : Encode PlanEntry := ⟨fun
  | .course c => encode c
  | .placeholder uniqueId name => .object [("unique_id", encode uniqueId), ("name", encode name)]⟩

instance : Decode PlanEntry := ⟨fun _ d =>
  if d.isSound then ((decode .plain d).map course).or (placeholder? d) else none⟩

instance : HasForm PlanEntry := ⟨.free⟩

end PlanEntry

namespace Semester

def fieldNames : List String := ["year", "season", "courses"]

instance : Encode Semester := ⟨fun s => .object
  [("year", encode s.year), ("season", encode s.season), ("courses", encode s.entries)]⟩

instance : Decode Semester := ⟨fun dialect d => do
  let fs ← d.fields? dialect fieldNames false
  return {
    year := ← Document.required dialect fs "year"
    season := ← Document.required dialect fs "season"
    entries := ← Document.optional dialect fs "courses" [] }⟩

instance : HasForm Semester := ⟨.record "Semester" <|
  fieldNames.zip [formOf UInt16, formOf Season, formOf (List PlanEntry)]⟩

end Semester

/-! ### students -/

namespace Profile

def fieldNames : List String :=
  ["college", "majors", "minors", "grad_program", "exams", "took_swim_test"]

instance : Encode Profile := ⟨fun p => .object
  [("college", encode p.college), ("majors", encode p.majors), ("minors", encode p.minors),
   ("grad_program", encode p.gradProgram), ("exams", encode p.exams),
   ("took_swim_test", encode p.tookSwimTest)]⟩

instance : Decode Profile := ⟨fun dialect d => do
  let fs ← d.fields? dialect fieldNames false
  return {
    college := ← Document.optional dialect fs "college" none
    majors := ← Document.optional dialect fs "majors" []
    minors := ← Document.optional dialect fs "minors" []
    gradProgram := ← Document.optional dialect fs "grad_program" none
    exams := ← Document.optional dialect fs "exams" []
    tookSwimTest := ← Document.optional dialect fs "took_swim_test" false }⟩

instance : HasForm Profile := ⟨.record "OnboardingData" <|
  fieldNames.zip [formOf (Option String), formOf (List String), formOf (List String),
    formOf (Option String), formOf (List ExamRecord), formOf Bool]⟩

end Profile

namespace SlotOverride

def fieldNames : List String := ["opt_in", "opt_out"]

instance : Encode SlotOverride := ⟨fun o => .object
  [("opt_in", encode o.optIn), ("opt_out", encode o.optOut)]⟩

instance : Decode SlotOverride := ⟨fun dialect d => do
  let fs ← d.fields? dialect fieldNames false
  return {
    optIn := ← Document.optional dialect fs "opt_in" []
    optOut := ← Document.optional dialect fs "opt_out" [] }⟩

instance : HasForm SlotOverride := ⟨.record "SlotOverride" <|
  fieldNames.zip [formOf (List CourseId), formOf (List CourseId)]⟩

end SlotOverride

namespace Student

def fieldNames : List String :=
  ["semesters", "onboarding", "toggleable_choices", "overridden_choices"]

instance : Encode Student := ⟨fun s => .object
  [("semesters", encode s.semesters), ("onboarding", encode s.profile),
   ("toggleable_choices", encode s.choices), ("overridden_choices", encode s.overrides)]⟩

instance : Decode Student := ⟨fun dialect d => do
  let fs ← d.fields? dialect fieldNames false
  return {
    semesters := ← Document.optional dialect fs "semesters" []
    profile := ← Document.optional dialect fs "onboarding" default
    choices := ← Document.optional dialect fs "toggleable_choices" {}
    overrides := ← Document.optional dialect fs "overridden_choices" {} }⟩

instance : HasForm Student := ⟨.record "UserState" <|
  fieldNames.zip [formOf (List Semester), formOf Profile, formOf OptionChoices,
    formOf Overrides]⟩

end Student

end DegreeProgress
