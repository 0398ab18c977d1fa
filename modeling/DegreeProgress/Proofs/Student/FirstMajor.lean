import DegreeProgress.Proofs.Student.Exams

/-!
# The first major decides

Which exams become courses at all depends on their scores and not on a major
(`ExamTable.mem_codes_convertFor`).  So the first major takes the codes of all of them, and nothing
is left for the others (`ExamTable.convert_cons`).
-/

namespace DegreeProgress

namespace ExamTable

variable (t : ExamTable) (college : String) (exams : List ExamRecord)

/-- the codes that are there: those of the exams that no rule is about or that reach some rule -/
theorem mem_codes_convertFor (major : Option String) (code : String) :
    code ∈ (t.convertFor college major exams).map (·.code) ↔
      ∃ e ∈ exams, e.code = code ∧
        ¬(t.rulesFor e ≠ [] ∧ ∀ r ∈ t.rulesFor e, e.score < r.minimumScore) := by
  simp only [← convertExam_eq_nil_iff college major]
  rw [List.mem_map]
  constructor
  · rintro ⟨c, hc, rfl⟩
    obtain ⟨e, he, hc⟩ := mem_convertFor hc
    obtain ⟨id, credits, heq⟩ := exists_of_mem_convertExam college major hc
    exact ⟨e, he, (congrArg Course.code heq).symm, List.ne_nil_of_mem hc⟩
  · rintro ⟨e, he, rfl, hne⟩
    obtain ⟨c, hc⟩ := List.exists_mem_of_ne_nil _ hne
    obtain ⟨id, credits, heq⟩ := exists_of_mem_convertExam college major hc
    refine ⟨c, ?_, congrArg Course.code heq⟩
    have hprogram : e.program ∈ [ExamProgram.ap, .ib] := by cases e.program <;> decide
    have hexam : e ∈ exams.filter (·.program == e.program) :=
      List.mem_filter.mpr ⟨he, beq_self_eq_true _⟩
    exact List.mem_flatMap.mpr ⟨e.program, hprogram, List.mem_flatMap.mpr ⟨e, hexam, hc⟩⟩

theorem mem_codes_convertFor_congr (major major' : Option String) (code : String) :
    code ∈ (t.convertFor college major exams).map (·.code)
      ↔ code ∈ (t.convertFor college major' exams).map (·.code) := by
  rw [mem_codes_convertFor, mem_codes_convertFor]

theorem convertMajors_of_taken {taken : List String} (majors : List String)
    (h : ∀ code ∈ (t.convertFor college none exams).map (·.code), code ∈ taken) :
    t.convertMajors college exams taken majors = [] := by
  induction majors with
  | nil => rfl
  | cons major majors ih =>
    have hfresh : (t.convertFor college (some major) exams).filter (!taken.contains ·.code)
        = [] := by
      rw [List.filter_eq_nil_iff]
      intro c hc
      have hcode := (t.mem_codes_convertFor_congr college exams (some major) none c.code).mp
        (List.mem_map_of_mem hc)
      rw [List.contains_iff_mem.mpr (h c.code hcode)]
      exact Bool.false_ne_true
    show _ ++ t.convertMajors college exams (taken ++ _) majors = []
    rw [hfresh, List.nil_append, List.map_nil, List.append_nil]
    exact ih

theorem convertMajors_cons (major : String) (majors : List String) :
    t.convertMajors college exams [] (major :: majors)
      = t.convertFor college (some major) exams := by
  have hfresh : (t.convertFor college (some major) exams).filter
      (!([] : List String).contains ·.code) = t.convertFor college (some major) exams :=
    List.filter_eq_self.mpr fun _ _ => rfl
  show _ ++ t.convertMajors college exams ([] ++ _) majors = _
  rw [hfresh, List.nil_append, convertMajors_of_taken, List.append_nil]
  exact fun code hcode => (t.mem_codes_convertFor_congr college exams none (some major) code).mp hcode

theorem convert_cons (college : Option String) (major : String) (majors : List String) :
    t.convert college (major :: majors) exams
      = (college.map (t.convertFor · (some major) exams)).getD [] := by
  cases college with
  | none => rfl
  | some college => exact t.convertMajors_cons college exams major majors

end ExamTable

end DegreeProgress
