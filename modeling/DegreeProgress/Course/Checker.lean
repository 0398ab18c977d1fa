import DegreeProgress.Course.Question
import DegreeProgress.Rule.Mask

/-!
# Slot checkers

Which courses a slot takes.  A checker is declared as an expression, as a list of code patterns or
as a list of catalog courses, and compiled to one rule.
-/

namespace DegreeProgress

/-- a checker as it is declared -/
inductive CheckerSource where
  | expression (text : String)
  | codes (patterns : List String)
  | courseIds (ids : List CourseId)
  deriving DecidableEq, Inhabited

/-- a compiled checker -/
abbrev Checker : Type := Rule CourseQuestion

inductive CheckerError where
  | expression (error : ExpressionError)
  | pattern (error : PatternError)
  | empty
  deriving DecidableEq

def CheckerError.message : CheckerError → String
  | expression error => s!"invalid checker expression: {error.message}"
  | pattern error => s!"invalid course code: {error.message}"
  | empty => "checker matches no course"

namespace Checker

/-- the rule that asks for any of several questions -/
def anyOf : List CourseQuestion → Except CheckerError Checker
  | [] => .error .empty
  | questions => .ok (Rule.joined .any (questions.map .leaf))

def codeQuestion (text : String) : Except CheckerError CourseQuestion :=
  match CodePattern.parse text with
  | .ok pattern => .ok (.code pattern)
  | .error e => .error (.pattern e)

def compile : CheckerSource → Except CheckerError Checker
  | .expression text => (Expression.parse CourseQuestion.resolve text).mapError .expression
  | .codes patterns => patterns.mapM codeQuestion >>= anyOf
  | .courseIds ids => anyOf (ids.map .course)

end Checker

end DegreeProgress
