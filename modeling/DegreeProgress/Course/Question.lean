import DegreeProgress.Course.Pattern
import DegreeProgress.Rule.Expression

/-!
# Questions about courses

The leaves of course rules: a code pattern, a catalog course, a subject or a lowest level.
-/

namespace DegreeProgress

inductive CourseQuestion where
  | code (pattern : CodePattern)
  | course (id : CourseId)
  | subject (name : String)
  /-- the number starts with a digit of at least this value -/
  | minLevel (level : UInt8)
  deriving DecidableEq

namespace CourseQuestion

def holds : CourseQuestion → Course → Bool
  | code pattern, c => pattern.matchesCode c.code
  | course id, c => c.courseId == id
  | subject name, c => eqIgnoringCase c.subject name
  | minLevel level, c =>
    match c.number.toList with
    | [] => false
    | ch :: _ => ch.isDigit && level.toNat ≤ ch.toNat - '0'.toNat

instance : Question CourseQuestion Course := ⟨holds⟩

/-- the question that a leaf call asks -/
def resolve (name : String) (args : List Literal) : Except String CourseQuestion :=
  match name, args with
  | "code", [.text text] => match CodePattern.parse text with
    | .ok pattern => .ok (.code pattern)
    | .error e => .error e.message
  | "course", [.number id] => .ok (.course ⟨id⟩)
  | "subject", [.text text] =>
    if isAllBlank text then .error "expects one string argument"
    else .ok (.subject (upperAscii (trimmed text)))
  | "min_level", [.number level] =>
    if 1 ≤ level ∧ level ≤ 9 then .ok (.minLevel level.toUInt8)
    else .error "expects one level between 1 and 9"
  | "code", _ | "subject", _ => .error "expects one string argument"
  | "course", _ => .error "expects one catalog id"
  | "min_level", _ => .error "expects one level between 1 and 9"
  | _, _ => .error "unknown course predicate"

end CourseQuestion

end DegreeProgress
