import DegreeProgress.Audit.Synthesized
import DegreeProgress.Proofs.Audit.CountedOnce
import DegreeProgress.Proofs.Course.Respelled
import DegreeProgress.Proofs.Student.Exams

/-!
# Which courses count towards the total credits

A checker reads a subject in any letter case.  Eligibility for the total credits tells the subjects
`PE`, `AP`, `IB` and `CREDITS` from others by their upper case letters, so it takes `pe 1100` for an
academic course.

* `Course.number_inUpperCase`            upper case can be taken of a code or of its number;
* `CreditEligibility.admits_congr`       the four subjects and the code in upper case settle what
                                         counts,
* `CreditPolicy.total?_congr`            and so they settle the sum;
* `CreditEligibility.lower_case_counts`  without the former it changes with letter case;
* `CreditEligibility.admits_by_subject`  where eligibility and the checker agree.
-/

namespace DegreeProgress

/-! ### digits -/

theorem toUpper_eq_iff_of_isDigit {ch d : Char} (hd : d.isDigit = true) :
    ch.toUpper = d ↔ ch = d := by
  by_cases hlower : ch.isLower = true
  · have halpha := isAlpha_of_isLower hlower
    have hne : ∀ x : Char, x.isAlpha = true → x ≠ d := by
      rintro x hx rfl
      rw [isDigit_of_isAlpha hx] at hd
      cases hd
    have hupper : ch.toUpper.isAlpha = true := by rw [isAlpha_toUpper, halpha]
    exact iff_of_false (hne _ hupper) (hne _ halpha)
  · rw [toUpper_of_not_isLower hlower]

theorem isPrefixOf_map_toUpper {ds : List Char} (hds : ∀ d ∈ ds, d.isDigit = true)
    (cs : List Char) : ds.isPrefixOf (cs.map Char.toUpper) = ds.isPrefixOf cs := by
  induction ds generalizing cs with
  | nil => simp
  | cons d ds ih =>
    obtain ⟨hd, hds⟩ := List.forall_mem_cons.mp hds
    cases cs with
    | nil => rfl
    | cons ch cs =>
      have hfirst : (d == ch.toUpper) = (d == ch) := by
        rw [Bool.eq_iff_iff, beq_iff_eq, beq_iff_eq, eq_comm, toUpper_eq_iff_of_isDigit hd, eq_comm]
      rw [List.map_cons, List.isPrefixOf, List.isPrefixOf, hfirst, ih hds]

/-! ### courses in upper case -/

namespace Course

/-- the course with its code in upper case -/
def inUpperCase (c : Course) : Course := { c with code := upperAscii c.code }

theorem not_isBlank_comp_toUpper : (!isBlank ·) ∘ Char.toUpper = (!isBlank ·) := by
  funext ch
  rw [Function.comp_apply, isBlank_toUpper]

theorem number_inUpperCase (c : Course) : c.inUpperCase.number = upperAscii c.number := by
  unfold number inUpperCase upperAscii
  simp only [String.toList_ofList]
  rw [dropBlanks_map_toUpper, List.dropWhile_map, not_isBlank_comp_toUpper, trimBlanks_map_toUpper]

theorem isIntroductory_inUpperCase (c : Course) :
    c.inUpperCase.isIntroductory = c.isIntroductory := by
  have hdigits : ∀ d ∈ ['1', '0'], d.isDigit = true := by simp
  have htext : (upperAscii c.number).toList = c.number.toList.map Char.toUpper :=
    String.toList_ofList
  unfold isIntroductory
  rw [number_inUpperCase, htext]
  exact isPrefixOf_map_toUpper hdigits _

/-- the subjects that eligibility asks for are those of both codes, or of none -/
def SubjectsAlike (c c' : Course) : Prop :=
  ∀ subject ∈ ["PE", "AP", "IB", "CREDITS"], c.subject = subject ↔ c'.subject = subject

instance (c c' : Course) : Decidable (SubjectsAlike c c') :=
  inferInstanceAs (Decidable (∀ subject ∈ _, _))

/-- the same course for the same credits, its code in other letter case -/
structure Recased (c c' : Course) : Prop where
  uniqueId : c.uniqueId = c'.uniqueId
  courseId : c.courseId = c'.courseId
  code : eqIgnoringCase c.code c'.code = true
  credits : c.credits = c'.credits

section
variable {c c' : Course}

theorem isIntroductory_congr (h : eqIgnoringCase c.code c'.code = true) :
    c.isIntroductory = c'.isIntroductory := by
  have hnumber : c.inUpperCase.number = c'.inUpperCase.number := by
    unfold number inUpperCase
    rw [eqIgnoringCase_iff.mp h]
  rw [← isIntroductory_inUpperCase c, ← isIntroductory_inUpperCase c', isIntroductory, hnumber,
    isIntroductory]

theorem isPhysicalEducation_congr (h : SubjectsAlike c c') :
    c.isPhysicalEducation = c'.isPhysicalEducation := by
  rw [isPhysicalEducation, isPhysicalEducation, Bool.eq_iff_iff, beq_iff_eq, beq_iff_eq]
  exact h "PE" (by decide)

theorem isExamCredit_congr (hid : c.courseId = c'.courseId) (h : SubjectsAlike c c') :
    c.isExamCredit = c'.isExamCredit := by
  have hsubjects : examSubjects.contains c.subject = examSubjects.contains c'.subject := by
    have hap := h "AP" (by decide)
    have hib := h "IB" (by decide)
    have hcredits := h "CREDITS" (by decide)
    rw [Bool.eq_iff_iff, List.contains_iff_mem, List.contains_iff_mem]
    simp only [examSubjects, List.mem_cons, List.not_mem_nil, or_false, hap, hib, hcredits]
  rw [isExamCredit, isExamCredit, hid, hsubjects]

end

end Course

/-! ### eligibility -/

namespace CreditEligibility

variable {c c' : Course}

theorem admits_congr (e : CreditEligibility) (hid : c.courseId = c'.courseId)
    (hcode : eqIgnoringCase c.code c'.code = true) (hsubject : c.SubjectsAlike c') :
    e.admits c = e.admits c' := by
  have hpe := Course.isPhysicalEducation_congr hsubject
  have hexam := Course.isExamCredit_congr hid hsubject
  have hintro := Course.isIntroductory_congr hcode
  cases e <;> simp only [admits, hid, hpe, hexam, hintro]

theorem admits_excludePE_eq_false_iff : excludePE.admits c = false ↔
    upperAscii c.subject = "PE" ∧ c.subject = upperAscii c.subject := by
  have hupper : upperAscii "PE" = "PE" := by decide
  rw [admits, Course.isPhysicalEducation, Bool.not_eq_false', beq_iff_eq]
  constructor
  · intro h
    rw [h, hupper]
    exact ⟨rfl, rfl⟩
  · rintro ⟨hsubject, h⟩
    rw [h, hsubject]

end CreditEligibility

/-! ### totals -/

/-- the two students differ in the letter case of the codes of their plans only -/
structure Student.Recased (s s' : Student) : Prop where
  planned : List.Forall₂ Course.Recased s.planned s'.planned
  profile : s.profile = s'.profile

namespace CreditPolicy

variable {α : Type} [Amount α]

/-- the sum of the total credits -/
def total? (p : CreditPolicy) (college : String) (courses : List Course) : Option α :=
  (p.entry? college courses).map (·.fulfillment.safe.fulfilled)

theorem total?_congr (p : CreditPolicy) (college : String) {courses courses' : List Course}
    (h : List.Forall₂ (fun c c' => c.Recased c' ∧ c.SubjectsAlike c') courses courses') :
    (p.total? college courses : Option α) = p.total? college courses' := by
  have hsum : ∀ e : CreditEligibility, (Statistics.creditSum (courses.filter e.admits) : α)
      = Statistics.creditSum (courses'.filter e.admits) := by
    intro e
    unfold Statistics.creditSum
    congr 1
    refine map_filter_of_forall₂ h (fun c c' hc => ?_) fun c c' hc => ?_
    · exact e.admits_congr hc.1.courseId hc.1.code hc.2
    · rw [hc.1.credits]
  unfold total? entry?
  split
  · rfl
  · rw [Option.map_map, Option.map_map]
    congr 1
    funext e
    exact hsum e

end CreditPolicy

/-! ### the rule and the checker -/

namespace Sample

/-- a course of one credit -/
def gym (code : String) : PlannedCourse := ⟨1, ⟨100⟩, code, 1.0⟩

/-- every course but those of physical education -/
def academicOnly : CreditPolicy where
  enabled := true
  required := 120.0
  colleges := .ofList [("EN", .excludePE)]

theorem recased_gym : (researcher [gym "pe 1100"]).Recased (researcher [gym "PE 1100"]) :=
  ⟨.cons ⟨rfl, rfl, by decide, rfl⟩ .nil, rfl⟩

end Sample

theorem Checker.compile_physicalEducation :
    compile (.expression "subject(\"PE\")") = .ok (.leaf (.subject "PE")) := rfl

namespace CreditEligibility

open Sample

/-- **In lower case physical education counts.**  A checker that asks for the subject takes
`pe 1100`, and so does the rule that leaves physical education out; it does not take `PE 1100`. -/
theorem lower_case_counts :
    ∃ checker, Checker.compile (.expression "subject(\"PE\")") = .ok checker ∧
      (∃ c ∈ (researcher [gym "pe 1100"]).planned,
        checker.accepts c = true ∧ excludePE.admits c = true) ∧
      ∃ s s' : Student, s.Recased s' ∧
        (∃ c ∈ s.planned, ∃ c' ∈ s'.planned, eqIgnoringCase c.code c'.code = true ∧
          excludePE.admits c = true ∧ excludePE.admits c' = false) ∧
        (academicOnly.total? "EN" (s.courses default) : Option Rat) = some 1 ∧
        (academicOnly.total? "EN" (s'.courses default) : Option Rat) = some 0 := by
  refine ⟨_, Checker.compile_physicalEducation, by decide +kernel, _, _, recased_gym, ?_, ?_, ?_⟩
  all_goals decide +kernel

/-- **Eligibility asks for subjects in upper case.**  The rule leaves out the courses that a checker
for the subject takes, if their subject is in upper case.  What it takes stays the same in other
letter case as long as the four subjects do, and then so does the sum of the total credits. -/
theorem admits_by_subject (c : Course) (s : Student) :
    (∃ checker, Checker.compile (.expression "subject(\"PE\")") = .ok checker ∧
      (excludePE.admits c = false ↔
        checker.accepts c = true ∧ c.subject = upperAscii c.subject)) ∧
    (∀ (e : CreditEligibility) (c' : Course), c.courseId = c'.courseId →
      eqIgnoringCase c.code c'.code = true → c.SubjectsAlike c' → e.admits c = e.admits c') ∧
    ∀ (α : Type) [Amount α] (p : CreditPolicy) (college : String) (table : ExamTable)
      (s' : Student), s.profile = s'.profile →
      List.Forall₂ (fun c c' => c.Recased c' ∧ c.SubjectsAlike c') s.planned s'.planned →
      (p.total? college (s.courses table) : Option α) = p.total? college (s'.courses table) := by
  refine ⟨⟨_, Checker.compile_physicalEducation, ?_⟩, fun e c' => e.admits_congr,
    fun α _ p college table s' hprofile hplanned => ?_⟩
  · have hupper : upperAscii "PE" = "PE" := by decide
    rw [admits_excludePE_eq_false_iff]
    show _ ↔ eqIgnoringCase c.subject "PE" = true ∧ _
    rw [eqIgnoringCase_iff, hupper]
  · have hexams : ∀ rows : List Course,
        List.Forall₂ (fun c c' => c.Recased c' ∧ c.SubjectsAlike c') rows rows :=
      fun rows => List.forall₂_same.mpr fun c _ =>
        ⟨⟨rfl, rfl, by rw [eqIgnoringCase_iff], rfl⟩, fun _ _ => Iff.rfl⟩
    apply p.total?_congr college
    unfold Student.courses
    rw [hprofile]
    exact List.rel_append hplanned (hexams _)

/-- the course of `systems` under its code in lower case -/
theorem admits_by_subject_systems :
    (∀ e : CreditEligibility, e.admits ⟨.numeric 1, ⟨100⟩, "cs 4999", 1.0⟩
      = e.admits ⟨.numeric 1, ⟨100⟩, "CS 4999", 1.0⟩) ∧
    (academicOnly.total? "EN" ((researcher [{ systems with code := "cs 4999" }]).courses default) :
      Option Rat) = some 1 := by
  obtain ⟨_, hadmits, htotal⟩ := admits_by_subject ⟨.numeric 1, ⟨100⟩, "cs 4999", 1.0⟩
    (researcher [{ systems with code := "cs 4999" }])
  have hsum : (academicOnly.total? "EN" ((researcher [systems]).courses default) : Option Rat)
      = some 1 := by
    decide +kernel
  refine ⟨fun e => hadmits e _ rfl (by decide) (by decide), ?_⟩
  rw [← hsum]
  exact htotal Rat academicOnly "EN" default _ rfl
    (.cons ⟨⟨rfl, rfl, by decide, rfl⟩, by decide⟩ .nil)

end CreditEligibility

end DegreeProgress
