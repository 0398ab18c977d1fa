import DegreeProgress.Proofs.Student.FirstMajor

/-!
# Edits that keep the courses

The courses of a student are those of the plan and those from exams.

* `PlanEdit`   placeholders come and go; semesters are split, merged, moved to another time and,
               once they are empty, removed: the courses of the plan stay the same, in their order
               (`PlanEdit.plannedCourses_eq`);
* `ExamTable.convert_repeated`   a major that is declared again gets no course from any exam, since
               only the first of all majors does.
-/

namespace DegreeProgress

/-! ### plans -/

/-- the courses of some semesters, one after the other -/
def plannedCourses (semesters : List Semester) : List Course :=
  (semesters.flatMap (·.entries)).filterMap PlanEntry.taken?

/-- an edit of a plan that keeps its courses in their order; read from right to left, a placeholder
is inserted and semesters are merged -/
inductive PlanEdit : List Semester → List Semester → Prop
  /-- a placeholder is removed -/
  | placeholder (before after : List Semester) (year : UInt16) (season : Season)
      (entries later : List PlanEntry) (uniqueId : UInt64) (name : String) :
      PlanEdit (before ++ ⟨year, season, entries ++ .placeholder uniqueId name :: later⟩ :: after)
        (before ++ ⟨year, season, entries ++ later⟩ :: after)
  /-- a semester is split into two, at any times -/
  | split (before after : List Semester) (year year₁ year₂ : UInt16)
      (season season₁ season₂ : Season) (entries later : List PlanEntry) :
      PlanEdit (before ++ ⟨year, season, entries ++ later⟩ :: after)
        (before ++ ⟨year₁, season₁, entries⟩ :: ⟨year₂, season₂, later⟩ :: after)
  /-- a semester without entries is removed -/
  | empty (before after : List Semester) (year : UInt16) (season : Season) :
      PlanEdit (before ++ ⟨year, season, []⟩ :: after) (before ++ after)
  /-- a semester is moved to another time, but not past other ones -/
  | moved (before after : List Semester) (year year' : UInt16) (season season' : Season)
      (entries : List PlanEntry) :
      PlanEdit (before ++ ⟨year, season, entries⟩ :: after)
        (before ++ ⟨year', season', entries⟩ :: after)

theorem plannedCourses_append (before after : List Semester) :
    plannedCourses (before ++ after) = plannedCourses before ++ plannedCourses after := by
  unfold plannedCourses
  rw [List.flatMap_append, List.filterMap_append]

theorem plannedCourses_cons (semester : Semester) (after : List Semester) :
    plannedCourses (semester :: after)
      = semester.entries.filterMap PlanEntry.taken? ++ plannedCourses after := by
  unfold plannedCourses
  rw [List.flatMap_cons, List.filterMap_append]

theorem PlanEdit.plannedCourses_eq {semesters semesters' : List Semester}
    (h : PlanEdit semesters semesters') : plannedCourses semesters' = plannedCourses semesters := by
  cases h with
  | placeholder before after year season entries later uniqueId name =>
    rw [plannedCourses_append, plannedCourses_append, plannedCourses_cons, plannedCourses_cons,
      List.filterMap_append, List.filterMap_append]
    rfl
  | split before after year year₁ year₂ season season₁ season₂ entries later =>
    rw [plannedCourses_append, plannedCourses_append, plannedCourses_cons, plannedCourses_cons,
      plannedCourses_cons, List.filterMap_append, List.append_assoc]
  | empty before after year season =>
    rw [plannedCourses_append, plannedCourses_append, plannedCourses_cons]
    rfl
  | moved before after year year' season season' entries =>
    rw [plannedCourses_append, plannedCourses_append, plannedCourses_cons, plannedCourses_cons]

/-! ### majors -/

namespace ExamTable

variable (t : ExamTable) (exams : List ExamRecord)

theorem convert_repeated (college : Option String) {before : List String} {major : String}
    (h : major ∈ before) (after : List String) :
    t.convert college (before ++ major :: after) exams
      = t.convert college (before ++ after) exams := by
  cases before with
  | nil => exact absurd h List.not_mem_nil
  | cons first before =>
    rw [List.cons_append, List.cons_append, convert_cons, convert_cons]

end ExamTable

end DegreeProgress
