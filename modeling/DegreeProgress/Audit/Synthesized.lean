import DegreeProgress.Audit.Report
import DegreeProgress.Decimal.Layout

/-!
# Requirements of the college

Two requirements that no catalog lists: a number of academic credits in total, and a passed swim
test.
-/

namespace DegreeProgress

/-- which courses count towards the total credits -/
inductive CreditEligibility where
  | excludePE
  | excludePEAndIntro
  /-- exam credit counts only through its carrier -/
  | excludePEIntroAndExam
  deriving DecidableEq, Inhabited

namespace CreditEligibility

def admits (e : CreditEligibility) (c : Course) : Bool :=
  match e with
  | excludePE => !c.isPhysicalEducation
  | excludePEAndIntro => c.isExamCredit || (!c.isPhysicalEducation && !c.isIntroductory)
  | excludePEIntroAndExam =>
    c.courseId == .credits ||
      (!c.isExamCredit && !c.isPhysicalEducation && !c.isIntroductory)

def excluded : CreditEligibility → String
  | excludePE => "PE courses do not count."
  | excludePEAndIntro | excludePEIntroAndExam =>
    "PE courses and courses numbered 1000-1099 do not count."

end CreditEligibility

structure CreditPolicy where
  enabled : Bool
  required : Float
  /-- the colleges that ask for total credits -/
  colleges : SortedMap String CreditEligibility

namespace CreditPolicy

def defaultRequired : Float := 120.0

def defaultColleges : List String := ["AG", "AS1", "HE", "IL", "BU"]

protected def default : CreditPolicy where
  enabled := true
  required := defaultRequired
  colleges := .ofList (defaultColleges.map (·, .excludePEAndIntro))

instance : Inhabited CreditPolicy := ⟨CreditPolicy.default⟩

def description (required : Float) (e : CreditEligibility) : String :=
  s!"{AmountLayout.text.write required} academic credits are required. {e.excluded}"

def requirementId (college : String) : RequirementId := ⟨s!"College-{college}-total-credits"⟩

/-- the total credits, where the policy asks the college's students for them -/
def entry? {α : Type} [Amount α] (p : CreditPolicy) (college : String) (courses : List Course) :
    Option (ReportEntry α) :=
  if !p.enabled then none
  else (p.colleges.get? college).map fun eligibility =>
    let counted := courses.filter eligibility.admits
    let statistics : Statistics α :=
      .single .credits (Statistics.creditSum counted) (Amount.ofFloat p.required) counted
    { requirement := {
        id := requirementId college
        name := "Total Academic Credits"
        description := description p.required eligibility
        source := ""
        programKind := .college
        programCode := college
        countedBy := .credits
        chosenOption := none
        slotNames := ["Credits"]
        minCounts := [p.required]
        minSlots := none
        doubleCounting := true }
      fulfillment := ⟨statistics, statistics⟩ }

end CreditPolicy

namespace SwimTest

def requirementId : RequirementId := ⟨"College-UNI-SwimTest"⟩

/-- the name, and the code, of a swim test that no course stands for -/
def name : String := "Swim Test"

def passedCourses (courses : List Course) (passed : Bool) : List Course :=
  courses.filter (·.courseId == .swimTest) ++
    if passed then [⟨.named name, .swimTest, name, 0.0⟩] else []

def entry {α : Type} [Amount α] (college : String) (courses : List Course) (passed : Bool) :
    ReportEntry α :=
  let counted := passedCourses courses passed
  let statistics : Statistics α :=
    .single .courses (Amount.ofCount (if counted.isEmpty then 0 else 1)) (Amount.ofCount 1)
      counted
  { requirement := {
      id := requirementId
      name
      description := "A basic swimming and water safety competency is required of all entering first-year undergraduate students."
      source := ""
      programKind := .college
      programCode := college
      countedBy := .courses
      chosenOption := none
      slotNames := ["Course"]
      minCounts := [1.0]
      minSlots := none
      doubleCounting := true }
    fulfillment := ⟨statistics, statistics⟩ }

end SwimTest

end DegreeProgress
