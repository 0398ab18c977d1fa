import DegreeProgress.Proofs.Audit.Groups
import DegreeProgress.Proofs.Audit.Shape
import DegreeProgress.Proofs.Audit.StaleData
import DegreeProgress.Proofs.Student.Edits
import Mathlib.Logic.Relation

/-!
# Edits that no audit shows

What a student's record says may be out of date or beside the point.  `Student.Immaterial` lists
such edits: of the plan, the programs, the choices and the overrides.

* `Catalog.resolve_eq_of_groupKeys`   of the programs of a student only those with a group matter;
* `Audit.run_congr`                   what an audit reads of a student;
* `Audit.run_step`                    one edit changes none of it;
* `Audit.run_eq_of_immaterial`        so the outcome stays the same under any number of edits.
-/

namespace DegreeProgress

/-! ### programs -/

namespace Catalog

variable (c : Catalog) (kind : ProgramKind)

theorem knownCodes_repeated {before : List String} {code : String} (h : code ∈ before)
    (after : List String) :
    c.knownCodes kind (before ++ code :: after) = c.knownCodes kind (before ++ after) := by
  unfold knownCodes
  rw [eraseDups_eq_firstPer, eraseDups_eq_firstPer, List.filter_append, List.filter_append,
    List.filter_cons]
  split
  · rename_i hknown
    apply firstPer_append_cons_of_mem
    rw [List.map_id]
    exact List.mem_filter.mpr ⟨h, hknown⟩
  · rfl

theorem knownCodes_unknown {code : String} (h : c.program? kind code = none)
    (before after : List String) :
    c.knownCodes kind (before ++ code :: after) = c.knownCodes kind (before ++ after) := by
  unfold knownCodes
  rw [List.filter_append, List.filter_append, List.filter_cons, h]
  rfl

/-- which requirements apply to a student depends on the programs that get a group only -/
theorem resolve_eq_of_groupKeys {p p' : Profile}
    (h : Audit.groupKeys c p' = Audit.groupKeys c p) (choices : OptionChoices) (o : Overrides) :
    c.resolve p' choices o = c.resolve p choices o := by
  have hkeys : ∀ p, c.resolve p choices o
      = (firstPer (·.id) ((Audit.groupKeys c p).flatMap c.requirementsIn)).map
          (·.resolve choices o) := by
    intro p
    unfold resolve
    rw [distinctById_eq, applicable_eq, Audit.groupKeys_eq, firstPer_flatMap_firstPer]
  rw [hkeys, hkeys, h]

end Catalog

/-- an edit of a profile that drops what is repeated or unknown -/
inductive ProfileEdit (catalog : Catalog) (p : Profile) : Profile → Prop
  /-- a later repetition of a major is dropped -/
  | repeatedMajor (before after : List String) (code : String)
      (h : p.majors = before ++ code :: after) (hcode : code ∈ before) :
      ProfileEdit catalog p { p with majors := before ++ after }
  /-- a later repetition of a minor is dropped -/
  | repeatedMinor (before after : List String) (code : String)
      (h : p.minors = before ++ code :: after) (hcode : code ∈ before) :
      ProfileEdit catalog p { p with minors := before ++ after }
  /-- a minor that the catalog does not know is dropped -/
  | unknownMinor (before after : List String) (code : String)
      (h : p.minors = before ++ code :: after) (hcode : catalog.program? .minor code = none) :
      ProfileEdit catalog p { p with minors := before ++ after }
  /-- a graduate program that the catalog does not know is dropped -/
  | unknownGrad (code : String) (h : p.gradProgram = some code)
      (hcode : catalog.program? .grad code = none) :
      ProfileEdit catalog p { p with gradProgram := none }

namespace ProfileEdit

variable {catalog : Catalog} {p p' : Profile} (h : ProfileEdit catalog p p')
include h

theorem groupKeys_eq : Audit.groupKeys catalog p' = Audit.groupKeys catalog p := by
  rw [Audit.groupKeys_eq_append, Audit.groupKeys_eq_append]
  cases h with
  | repeatedMajor before after code h hcode => rw [h, catalog.knownCodes_repeated .major hcode]
  | repeatedMinor before after code h hcode => rw [h, catalog.knownCodes_repeated .minor hcode]
  | unknownMinor before after code h hcode => rw [h, catalog.knownCodes_unknown .minor hcode]
  | unknownGrad code h hcode =>
    have hgrad := catalog.knownCodes_unknown .grad hcode [] []
    rw [List.nil_append, List.nil_append] at hgrad
    rw [h, Option.toList_some, hgrad]
    rfl

theorem convert_eq (table : ExamTable) :
    table.convert p'.college p'.majors p'.exams = table.convert p.college p.majors p.exams := by
  cases h with
  | repeatedMajor before after code h hcode =>
    rw [h]
    exact (table.convert_repeated p.exams p.college hcode after).symm
  | repeatedMinor before after code h hcode => rfl
  | unknownMinor before after code h hcode => rfl
  | unknownGrad code h hcode => rfl

theorem tookSwimTest_eq : p'.tookSwimTest = p.tookSwimTest := by
  cases h with
  | repeatedMajor before after code h hcode => rfl
  | repeatedMinor before after code h hcode => rfl
  | unknownMinor before after code h hcode => rfl
  | unknownGrad code h hcode => rfl

end ProfileEdit

/-! ### students -/

/-- an edit that no audit by the catalog shows -/
inductive Student.Immaterial (catalog : Catalog) (s : Student) : Student → Prop
  | plan (semesters : List Semester) (h : PlanEdit s.semesters semesters) :
      Immaterial catalog s { s with semesters }
  | profile (profile : Profile) (h : ProfileEdit catalog s.profile profile) :
      Immaterial catalog s { s with profile }
  | choice (id : RequirementId)
      (h : StaleChoice (catalog.resolve s.profile s.choices s.overrides) s.choices id) :
      Immaterial catalog s { s with choices := s.choices.erase id }
  | overrides (overrides : Overrides)
      (h : OverridesEdit (catalog.resolve s.profile s.choices s.overrides) s.overrides overrides) :
      Immaterial catalog s { s with overrides }

namespace Audit

section
variable {α : Type} [Amount α] {options : AuditOptions} {catalog : Catalog} {table : ExamTable}
  {s s' : Student}

/-- what an audit reads of a student: the courses, the requirements that apply, the programs with
a group, and whether the swim test is passed -/
theorem run_congr (hcourses : s'.courses table = s.courses table)
    (hresolve : catalog.resolve s'.profile s'.choices s'.overrides
      = catalog.resolve s.profile s.choices s.overrides)
    (hkeys : groupKeys catalog s'.profile = groupKeys catalog s.profile)
    (hswim : s'.profile.tookSwimTest = s.profile.tookSwimTest) :
    run α options catalog table s' = run α options catalog table s := by
  have hgroup : ∀ courses a requirements keys,
      (group options s'.profile courses a requirements keys : _ → ReportGroup α)
        = group options s.profile courses a requirements keys := by
    intro courses a requirements keys
    funext key
    unfold group collegeEntries
    rw [hswim]
  unfold run
  simp only [hcourses, hresolve, hkeys, hgroup]

theorem run_step (h : s.Immaterial catalog s') :
    run α options catalog table s' = run α options catalog table s := by
  cases h with
  | plan semesters h =>
    refine run_congr ?_ rfl rfl rfl
    show plannedCourses semesters ++ _ = plannedCourses s.semesters ++ _
    rw [h.plannedCourses_eq]
  | profile profile h =>
    refine run_congr ?_ ?_ h.groupKeys_eq h.tookSwimTest_eq
    · exact congrArg (plannedCourses s.semesters ++ ·) (h.convert_eq table)
    · exact catalog.resolve_eq_of_groupKeys h.groupKeys_eq s.choices s.overrides
  | choice id h => exact run_congr rfl (Catalog.resolve_erase_choice h) rfl rfl
  | overrides overrides h => exact run_congr rfl h.resolve_eq rfl rfl

end

/-- **What is out of date does not matter.**  Under any number of immaterial edits, in either
direction, the outcome of an audit stays the same: the report, the courses and both graphs. -/
theorem run_eq_of_immaterial (α : Type) [Amount α] (options : AuditOptions) (catalog : Catalog)
    (table : ExamTable) {s s' : Student}
    (h : Relation.EqvGen (Student.Immaterial catalog) s s') :
    run α options catalog table s' = run α options catalog table s := by
  induction h with
  | rel s s' h => exact run_step h
  | refl s => rfl
  | symm s s' h ih => exact ih.symm
  | trans s s' s'' h h' ih ih' => exact ih'.trans ih

end Audit

namespace Sample

/-- a student with much that is out of date -/
def cluttered : Student where
  semesters := [⟨2024, .fall,
    [.course (planned 11), .placeholder 7 "Elective", .course (planned 12)]⟩]
  profile := ⟨none, ["CS", "CS"], ["Alchemy"], none, [], false⟩
  choices := staleChoice
  overrides := .ofList [(⟨"Minor-Alchemy-Gold"⟩, .ofList [("Gold", ⟨[⟨12⟩], []⟩)])]

/-- the same student without it, and with a second semester -/
def tidied : Student where
  semesters := [⟨2024, .fall, [.course (planned 11)]⟩, ⟨2025, .spring, [.course (planned 12)]⟩]
  profile := computing
  choices := {}
  overrides := {}

end Sample

namespace Audit

open Sample

theorem run_eq_of_immaterial_tidied : ∃ catalog, Catalog.compile declaredEmphases = .ok catalog ∧
    Relation.EqvGen (Student.Immaterial catalog) cluttered tidied ∧
    run Rat default catalog default tidied = run Rat default catalog default cluttered := by
  have hstale : ∃ catalog, Catalog.compile declaredEmphases = .ok catalog ∧
      catalog.program? .minor "Alchemy" = none ∧
      (∃ r ∈ catalog.resolve computing staleChoice cluttered.overrides,
        r.id = ⟨"Major-CS-Emphasis"⟩ ∧ r.requirement.choice? "Graphics" = none) ∧
      ∀ r ∈ catalog.resolve computing {} cluttered.overrides, r.id ≠ ⟨"Minor-Alchemy-Gold"⟩ :=
    exists_ok_of_any (by decide +kernel)
  obtain ⟨catalog, hcatalog, hminor, ⟨r, hr, hid, hname⟩, hnone⟩ := hstale
  have hedits : Relation.EqvGen (Student.Immaterial catalog) cluttered tidied := by
    refine .trans _ _ _ (.rel _ _ (.plan _
      (.placeholder [] [] _ _ [.course (planned 11)] [.course (planned 12)] 7 "Elective"))) ?_
    refine .trans _ _ _ (.rel _ _ (.plan _
      (.split [] [] _ 2024 2025 _ .fall .spring [.course (planned 11)] [.course (planned 12)]))) ?_
    refine .trans _ _ _ (.rel _ _ (.profile _
      (.repeatedMajor ["CS"] [] "CS" rfl List.mem_cons_self))) ?_
    refine .trans _ _ _ (.rel _ _ (.profile _ (.unknownMinor [] [] "Alchemy" rfl hminor))) ?_
    refine .trans _ _ _ (.rel _ _ (.choice ⟨"Major-CS-Emphasis"⟩
      (.noSuchOption r hr hid "Graphics" rfl hname))) ?_
    exact .rel _ _ (.overrides _ (.notResolved ⟨"Minor-Alchemy-Gold"⟩ hnone))
  exact ⟨catalog, hcatalog, hedits, run_eq_of_immaterial Rat default catalog default hedits⟩

end Audit

end DegreeProgress
