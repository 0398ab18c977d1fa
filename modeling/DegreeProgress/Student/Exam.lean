import DegreeProgress.Course.Basic
import DegreeProgress.Sorted.Map

/-!
# Exam credit

Exam results, the table that says what they are worth, and the courses that they become.
-/

namespace DegreeProgress

inductive ExamProgram where
  | ap
  | ib
  deriving DecidableEq, Inhabited

def ExamProgram.name : ExamProgram → String
  | ap => "AP"
  | ib => "IB"

structure ExamRecord where
  program : ExamProgram
  subject : String
  score : UInt32
  deriving DecidableEq, Inhabited

/-- the code, and the identity, of all courses that an exam becomes -/
def ExamRecord.code (e : ExamRecord) : String := s!"{e.program.name} {e.subject}"

structure ExamRule where
  /-- covers the exams whose subject occurs in it -/
  name : String
  minimumScore : UInt32
  credits : Float
  /-- the courses that the exam replaces, by college -/
  equivalents : SortedMap String (List CourseId)
  /-- the majors that do not take this credit -/
  excludedMajors : List String
  deriving Inhabited

structure ExamTable where
  ap : List ExamRule
  ib : List ExamRule
  deriving Inhabited

/-- whether the first text occurs somewhere in the second -/
def occursIn (needle : List Char) : List Char → Bool
  | [] => needle.isEmpty
  | c :: cs => needle.isPrefixOf (c :: cs) || occursIn needle cs

/-- a course that stands for an exam -/
def ExamRecord.course (e : ExamRecord) (id : CourseId) (credits : Float) : Course :=
  ⟨.named e.code, id, e.code, credits⟩

namespace ExamRule

/-- the college under which equivalents for all other colleges are listed -/
def defaultCollege : String := "DEFAULT"

def covers (r : ExamRule) (e : ExamRecord) : Bool :=
  occursIn e.subject.toList r.name.toList

def equivalentsFor (r : ExamRule) (college : String) : List CourseId :=
  ((r.equivalents.get? college).or (r.equivalents.get? defaultCollege)).getD []

/-- the rule with the higher minimum score; the earlier one when they are level -/
def better (best : Option ExamRule) (r : ExamRule) : Option ExamRule :=
  match best with
  | some current => if r.minimumScore ≤ current.minimumScore then some current else some r
  | none => some r

/-- the courses for an exam that the rule grants; the credits go to exactly one of them -/
def grant (r : ExamRule) (college : String) (e : ExamRecord) : List Course :=
  match r.equivalentsFor college with
  | [id] => [e.course id r.credits]
  | ids => e.course .credits r.credits :: ids.map (e.course · 0.0)

end ExamRule

namespace ExamTable

def rules (t : ExamTable) : ExamProgram → List ExamRule
  | .ap => t.ap
  | .ib => t.ib

/-- the rules about an exam; none are about an exam without a subject -/
def rulesFor (t : ExamTable) (e : ExamRecord) : List ExamRule :=
  if e.subject.isEmpty then [] else (t.rules e.program).filter (·.covers e)

/-- the courses that one exam becomes -/
def convertExam (t : ExamTable) (college : String) (major : Option String) (e : ExamRecord) :
    List Course :=
  let known := t.rulesFor e
  if known.isEmpty then [e.course .noEquivalent 0.0]
  else match (known.filter (·.minimumScore ≤ e.score)).foldl ExamRule.better none with
    | none => []
    | some rule =>
      if major.any (rule.excludedMajors.contains ·) then [e.course .noEquivalent 0.0]
      else rule.grant college e

/-- the courses of all exams for one major; AP results come before IB results -/
def convertFor (t : ExamTable) (college : String) (major : Option String)
    (exams : List ExamRecord) : List Course :=
  [ExamProgram.ap, .ib].flatMap fun program =>
    (exams.filter (·.program == program)).flatMap (t.convertExam college major)

/-- the courses for each major in turn, leaving out the codes that are `taken` -/
def convertMajors (t : ExamTable) (college : String) (exams : List ExamRecord)
    (taken : List String) : List String → List Course
  | [] => []
  | major :: majors =>
    let fresh := (t.convertFor college (some major) exams).filter (!taken.contains ·.code)
    fresh ++ t.convertMajors college exams (taken ++ fresh.map (·.code)) majors

/-- the courses that exams become: none without a college, and the first major to get any course
of an exam settles that exam -/
def convert (t : ExamTable) (college : Option String) (majors : List String)
    (exams : List ExamRecord) : List Course :=
  match college with
  | none => []
  | some college =>
    if majors.isEmpty then t.convertFor college none exams
    else t.convertMajors college exams [] majors

end ExamTable

end DegreeProgress
