import DegreeProgress.Identifier
import DegreeProgress.Text.Words

/-!
# Courses

A course on a student's record.  Its code is a subject and a number, such as `CS 2110`.
-/

namespace DegreeProgress

structure Course where
  uniqueId : UniqueId
  courseId : CourseId
  code : String
  credits : Float
  deriving Inhabited

namespace Course

/-- the first word of the code -/
def subject (c : Course) : String :=
  String.ofList ((dropBlanks c.code.toList).takeWhile (!isBlank ·))

/-- what follows the first word of the code -/
def number (c : Course) : String :=
  String.ofList (trimBlanks ((dropBlanks c.code.toList).dropWhile (!isBlank ·)))

/-- the subjects of codes that stand for exams -/
def examSubjects : List String := ["AP", "IB", "CREDITS"]

/-- credit from an exam and not from a class -/
def isExamCredit (c : Course) : Bool :=
  c.courseId == .credits || c.courseId == .writingExam || examSubjects.contains c.subject

def isPhysicalEducation (c : Course) : Bool := c.subject == "PE"

/-- numbered 10, 100 to 109, 1000 to 1099 and so on -/
def isIntroductory (c : Course) : Bool := ['1', '0'].isPrefixOf c.number.toList

end Course

end DegreeProgress
