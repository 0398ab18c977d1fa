import DegreeProgress.Course.Checker
import DegreeProgress.Document.Form

/-!
# Courses and rules as documents

An identity is a number or a text, a code pattern its text, and a rule an object with one member
that names the kind of its root.
-/

namespace DegreeProgress

/-! ### identifiers -/

instance : Encode RequirementId := ⟨fun id => .text id.text⟩
instance : Decode RequirementId := ⟨fun dialect d => (decode dialect d).map RequirementId.mk⟩

instance : Encode CourseId := ⟨fun id => encode id.value⟩
instance : Decode CourseId := ⟨fun dialect d => (decode dialect d).map CourseId.mk⟩
instance : HasForm CourseId := ⟨formOf UInt64⟩

instance : Encode UniqueId := ⟨fun
  | .numeric n => encode n
  | .named s => .text s⟩
instance : Decode UniqueId := ⟨fun _ d =>
  match d with
  | .text s => some (.named s)
  | d => (decode .plain d).map UniqueId.numeric⟩

/-- a map by requirement -/
instance {α : Type} [Encode α] : Encode (SortedMap RequirementId α) :=
  ⟨fun m => .object (m.entries.map fun e => (e.1.text, encode e.2))⟩
instance {α : Type} [Decode α] : Decode (SortedMap RequirementId α) := ⟨fun
  | dialect, .object members => do
    let entries ← members.mapM fun e => (decode dialect e.2).map (RequirementId.mk e.1, ·)
    return .ofList entries
  | _, _ => none⟩
instance {α : Type} [HasForm α] : HasForm (SortedMap RequirementId α) := ⟨.map (formOf α)⟩

/-! ### courses -/

namespace Course

def fieldNames : List String := ["unique_id", "course_id", "code", "credits"]

instance : Encode Course := ⟨fun c => .object
  [("unique_id", encode c.uniqueId), ("course_id", encode c.courseId), ("code", encode c.code),
   ("credits", encode c.credits)]⟩

instance : Decode Course := ⟨fun dialect d => do
  let fs ← d.fields? dialect fieldNames false
  return {
    uniqueId := ← Document.required dialect fs "unique_id"
    courseId := ← Document.required dialect fs "course_id"
    code := ← Document.required dialect fs "code"
    credits := ← Document.required dialect fs "credits" }⟩

end Course

/-! ### questions and rules -/

instance : Encode CodePattern := ⟨fun p => .text p.display⟩
instance : Decode CodePattern := ⟨fun dialect d => do
  let text : String ← decode dialect d
  (CodePattern.parse text).toOption⟩

instance : Encode CourseQuestion := ⟨fun
  | .code pattern => .object [("code", encode pattern)]
  | .course id => .object [("course", encode id)]
  | .subject name => .object [("subject", encode name)]
  | .minLevel level => .object [("min_level", encode level)]⟩

instance : Decode CourseQuestion := ⟨fun dialect d => do
  let (tag, d) ← d.tagged?
  match tag with
  | "code" => (decode dialect d).map .code
  | "course" => (decode dialect d).map .course
  | "subject" => (decode dialect d).map .subject
  | "min_level" => (decode dialect d).map .minLevel
  | _ => none⟩

namespace Rule

variable {P : Type}

mutual

def toDocument [Encode P] : Rule P → Document
  | leaf q => .object [("leaf", encode q)]
  | all ms => .object [("all", .list (toDocuments ms))]
  | any ms => .object [("any", .list (toDocuments ms))]
  | not r => .object [("not", r.toDocument)]
  | atLeast min ms =>
    .object [("at_least", .object [("min", encode min), ("members", .list (toDocuments ms))])]

def toDocuments [Encode P] : List (Rule P) → List Document
  | [] => []
  | r :: rs => r.toDocument :: toDocuments rs

end

/-- the items of a list -/
def items? : Document → Option (List Document)
  | .list items => some items
  | _ => none

/-- reads a rule from a document of at most the given number of levels -/
def ofDocument? [Decode P] : (levels : Nat) → Document → Option (Rule P)
  | 0, _ => none
  | levels + 1, d => do
    let (tag, d) ← d.tagged?
    match tag with
    | "leaf" => (decode .plain d).map leaf
    | "all" => ((← items? d).mapM (ofDocument? levels)).map all
    | "any" => ((← items? d).mapM (ofDocument? levels)).map any
    | "not" => (ofDocument? levels d).map not
    | "at_least" =>
      let fs ← d.fields? .plain ["min", "members"] false
      let min ← Document.required .plain fs "min"
      let members ← (← (fs.lookup "members").bind items?).mapM (ofDocument? levels)
      return atLeast min members
    | _ => none

instance [Encode P] : Encode (Rule P) := ⟨toDocument⟩
instance [Decode P] : Decode (Rule P) := ⟨fun _ d => ofDocument? d.levels d⟩

end Rule

/-! ### checkers -/

instance : Encode CheckerSource := ⟨fun
  | .expression text => .text text
  | .codes patterns => encode patterns
  | .courseIds ids => encode ids⟩

/-- a text is an expression, and a list of texts, even an empty one, lists code patterns -/
instance : Decode CheckerSource := ⟨fun _ d =>
  if !d.isSound then none
  else match d with
    | .text s => some (.expression s)
    | d => ((decode .plain d).map .codes).or ((decode .plain d).map .courseIds)⟩

instance : HasForm CheckerSource := ⟨.free⟩

/-! ### literals -/

instance : Encode Literal := ⟨fun
  | .text s => .text s
  | .number n => encode n⟩
instance : Decode Literal := ⟨fun _ d =>
  match d with
  | .text s => some (.text s)
  | d => (decode .plain d).map Literal.number⟩

end DegreeProgress
