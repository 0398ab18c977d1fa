import DegreeProgress.Course.Checker
import DegreeProgress.Proofs.Course.Matching
import DegreeProgress.Proofs.Rule.Tree

/-!
# Courses with their codes respelled

A course is respelled if its code is written with other blanks or in other letter case
(`Course.Respelled`).  A question about courses reads the words of a code in upper case and nothing
else of it:

* `Course.subject_eq`             the subject is the first word,
* `Course.head?_number`           and the number starts like the second word;
* `CourseQuestion.holds_congr`    so a question has the same answer for a course that is respelled,
* `Checker.accepts_congr`         and every checker takes it or leaves it as before.
-/

namespace DegreeProgress

namespace Course

/-- the same course, its code with the same words up to letter case, for any credits -/
structure Respelled (c c' : Course) : Prop where
  uniqueId : c.uniqueId = c'.uniqueId
  courseId : c.courseId = c'.courseId
  code : SameWords c.code c'.code

instance (c c' : Course) : Decidable (Respelled c c') :=
  decidable_of_iff (c.uniqueId = c'.uniqueId ∧ c.courseId = c'.courseId ∧ SameWords c.code c'.code)
    ⟨fun h => ⟨h.1, h.2.1, h.2.2⟩, fun h => ⟨h.uniqueId, h.courseId, h.code⟩⟩

/-! ### the words of a code -/

theorem subject_eq (c : Course) : c.subject = (words c.code).headD "" := by
  unfold subject words
  by_cases hcode : dropBlanks c.code.toList = []
  · rw [wordsOf_eq_nil hcode, hcode]
    rfl
  · rw [wordsOf_eq_cons hcode]
    rfl

theorem head?_number (c : Course) :
    c.number.toList.head? = (words c.code).tail.head?.bind (·.toList.head?) := by
  unfold number words
  rw [String.toList_ofList, head?_trimBlanks]
  by_cases hcode : dropBlanks c.code.toList = []
  · rw [wordsOf_eq_nil hcode, hcode]
    rfl
  · rw [wordsOf_eq_cons hcode, List.map_cons, List.tail_cons, List.head?_map, Option.bind_map]
    congr 1
    funext w
    rw [Function.comp_apply, String.toList_ofList]

end Course

/-! ### questions -/

section
variable {c c' : Course} (hcode : SameWords c.code c'.code)
include hcode

theorem upperAscii_subject_congr : upperAscii c.subject = upperAscii c'.subject := by
  have hhead : ∀ ws : List String, upperAscii (ws.headD "") = (ws.map upperAscii).headD "" := by
    rintro (_ | ⟨w, ws⟩) <;> rfl
  rw [Course.subject_eq, Course.subject_eq, hhead, hhead, sameWords_iff.mp hcode]

theorem head?_number_congr : c.number.toList.head?.map Char.toUpper
    = c'.number.toList.head?.map Char.toUpper := by
  have hupper : ∀ w : String, w.toList.head?.map Char.toUpper = (upperAscii w).toList.head? := by
    intro w
    rw [upperAscii, String.toList_ofList, List.head?_map]
  have hhead : ∀ c : Course, c.number.toList.head?.map Char.toUpper
      = ((words c.code).map upperAscii).tail.head?.bind (·.toList.head?) := by
    intro c
    rw [Course.head?_number, Option.map_bind, ← List.map_tail, List.head?_map, Option.bind_map]
    simp only [Function.comp_def, hupper]
  rw [hhead, hhead, sameWords_iff.mp hcode]

end

namespace CourseQuestion

/-- a digit of at least a level -/
def reaches (level : UInt8) (ch : Char) : Bool := ch.isDigit && level.toNat ≤ ch.toNat - '0'.toNat

theorem reaches_toUpper (level : UInt8) (ch : Char) :
    reaches level ch.toUpper = reaches level ch := by
  unfold reaches
  by_cases hlower : ch.isLower = true
  · have halpha := isAlpha_of_isLower hlower
    have hupper : ch.toUpper.isAlpha = true := by rw [isAlpha_toUpper, halpha]
    rw [isDigit_of_isAlpha halpha, isDigit_of_isAlpha hupper, Bool.false_and, Bool.false_and]
  · rw [toUpper_of_not_isLower hlower]

theorem holds_minLevel (level : UInt8) (c : Course) :
    (minLevel level).holds c = c.number.toList.head?.any (reaches level) := by
  rw [holds]
  cases c.number.toList with
  | nil => rfl
  | cons ch rest => rfl

theorem holds_congr (q : CourseQuestion) {c c' : Course} (hid : c.courseId = c'.courseId)
    (hcode : SameWords c.code c'.code) : q.holds c = q.holds c' := by
  cases q with
  | code pattern =>
    show pattern.matchesCode c.code = pattern.matchesCode c'.code
    rw [CodePattern.matchesCode_eq, CodePattern.matchesCode_eq, sameWords_iff.mp hcode]
  | course id =>
    show (c.courseId == id) = (c'.courseId == id)
    rw [hid]
  | subject name =>
    show eqIgnoringCase c.subject name = eqIgnoringCase c'.subject name
    rw [Bool.eq_iff_iff, eqIgnoringCase_iff, eqIgnoringCase_iff, upperAscii_subject_congr hcode]
  | minLevel level =>
    have hany : ∀ c : Course, (minLevel level).holds c
        = (c.number.toList.head?.map Char.toUpper).any (reaches level) := by
      intro c
      rw [holds_minLevel, Option.any_map]
      simp only [reaches_toUpper]
    rw [hany, hany, head?_number_congr hcode]

end CourseQuestion

/-- what is read of the rows that are let through, in two lists that go along with each other -/
theorem map_filter_of_forall₂ {α β : Type} {R : α → α → Prop} {xs ys : List α}
    (h : List.Forall₂ R xs ys) {p p' : α → Bool} {f : α → β} (hp : ∀ x y, R x y → p x = p' y)
    (hf : ∀ x y, R x y → f x = f y) : (xs.filter p).map f = (ys.filter p').map f := by
  have hrows : List.Forall₂ R (xs.filter p) (ys.filter p') :=
    List.rel_filter (fun x y hxy => iff_of_eq (congrArg (· = true) (hp x y hxy))) h
  rw [← List.forall₂_eq_eq_eq, List.forall₂_map_left_iff, List.forall₂_map_right_iff]
  exact hrows.imp fun x y hxy => hf x y hxy

theorem Checker.accepts_congr (r : Checker) {c c' : Course} (hid : c.courseId = c'.courseId)
    (hcode : SameWords c.code c'.code) : r.accepts c = r.accepts c' :=
  Rule.accepts_congr r fun q _ => q.holds_congr hid hcode

end DegreeProgress
