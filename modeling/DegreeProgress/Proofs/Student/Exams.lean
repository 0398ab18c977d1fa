import DegreeProgress.Student.Basic
import DegreeProgress.Proofs.Sorted.Views
import DegreeProgress.Proofs.Student.BestRule

/-!
# Rows from exams

Every course that exams become is a row of one of them (`ExamTable.mem_convert`).  Where the number
of an exam without an equivalent is reserved for such exams (`NoEquivalentReserved`), the rows with
that number are the exams' own, and they carry no credits (`Student.eq_course_of_noEquivalent`).
-/

namespace DegreeProgress

/-! ### one exam -/

namespace ExamRule

theorem Lists.mem_values {r : ExamRule} {college : String} {ids : List CourseId}
    (h : r.Lists college ids) (hne : ids ≠ []) : ids ∈ r.equivalents.values := by
  cases h with
  | own hlist => exact SortedMap.mem_values_of_get? hlist
  | shared _ hlist => exact SortedMap.mem_values_of_get? hlist
  | nothing _ _ => exact absurd rfl hne

theorem courseId_of_mem_grant {r : ExamRule} {college : String} {e : ExamRecord} {c : Course}
    (h : c ∈ r.grant college e) :
    c.courseId = .credits ∨ c.courseId ∈ r.equivalentsFor college := by
  unfold grant at h
  split at h
  · rename_i id hids
    rw [List.mem_singleton.mp h, hids]
    exact Or.inr List.mem_cons_self
  · rcases List.mem_cons.mp h with rfl | h
    · exact Or.inl rfl
    · obtain ⟨id, hid, rfl⟩ := List.mem_map.mp h
      exact Or.inr hid

end ExamRule

namespace ExamTable

variable {t : ExamTable}

theorem mem_of_mem_rulesFor {e : ExamRecord} {r : ExamRule} (h : r ∈ t.rulesFor e) :
    r ∈ t.ap ++ t.ib := by
  unfold rulesFor at h
  split at h
  · exact absurd h List.not_mem_nil
  · have hr := (List.mem_filter.mp h).1
    unfold rules at hr
    split at hr
    · exact List.mem_append_left _ hr
    · exact List.mem_append_right _ hr

/-- no list of equivalents names a course -/
def NeverLists (t : ExamTable) (k : CourseId) : Prop :=
  ∀ rule ∈ t.ap ++ t.ib, ∀ ids ∈ rule.equivalents.values, k ∉ ids

instance (t : ExamTable) (k : CourseId) : Decidable (t.NeverLists k) :=
  inferInstanceAs (Decidable (∀ rule ∈ t.ap ++ t.ib, ∀ ids ∈ rule.equivalents.values, k ∉ ids))

theorem eq_course_of_mem_convertExam (ht : t.NeverLists .noEquivalent) {college : String}
    {major : Option String} {e : ExamRecord} {c : Course} (h : c ∈ t.convertExam college major e)
    (hk : c.courseId = .noEquivalent) : c = e.course .noEquivalent 0.0 := by
  rcases t.convertExam_cases college major with heq | heq | ⟨b, hb, heq⟩
  · rw [heq] at h
    exact List.mem_singleton.mp h
  · rw [heq] at h
    exact absurd h List.not_mem_nil
  · -- the rows that a rule grants are for credits or for courses that it lists
    rw [heq] at h
    rcases ExamRule.courseId_of_mem_grant h with hcredits | hlisted
    · rw [hk] at hcredits
      exact absurd hcredits (by decide)
    · have hids := (b.lists_equivalentsFor college).mem_values (List.ne_nil_of_mem hlisted)
      rw [hk] at hlisted
      exact absurd hlisted (ht b (mem_of_mem_rulesFor hb) _ hids)

/-! ### all exams -/

theorem mem_convertFor {college : String} {major : Option String} {exams : List ExamRecord}
    {c : Course} (h : c ∈ t.convertFor college major exams) :
    ∃ e ∈ exams, c ∈ t.convertExam college major e := by
  obtain ⟨program, _, hc⟩ := List.mem_flatMap.mp h
  obtain ⟨e, he, hc⟩ := List.mem_flatMap.mp hc
  exact ⟨e, (List.mem_filter.mp he).1, hc⟩

theorem mem_convertMajors {college : String} {exams : List ExamRecord} {taken majors : List String}
    {c : Course} (h : c ∈ t.convertMajors college exams taken majors) :
    ∃ major, c ∈ t.convertFor college (some major) exams := by
  induction majors generalizing taken with
  | nil => exact absurd h List.not_mem_nil
  | cons major majors ih =>
    rcases List.mem_append.mp h with h | h
    · exact ⟨major, (List.mem_filter.mp h).1⟩
    · exact ih h

theorem mem_convert {college : Option String} {majors : List String} {exams : List ExamRecord}
    {c : Course} (h : c ∈ t.convert college majors exams) :
    ∃ college major, ∃ e ∈ exams, c ∈ t.convertExam college major e := by
  unfold convert at h
  split at h
  · exact absurd h List.not_mem_nil
  · rename_i college
    split at h
    · obtain ⟨e, he, hc⟩ := mem_convertFor h
      exact ⟨college, none, e, he, hc⟩
    · obtain ⟨major, hc⟩ := mem_convertMajors h
      obtain ⟨e, he, hc⟩ := mem_convertFor hc
      exact ⟨college, some major, e, he, hc⟩

end ExamTable

/-! ### students -/

/-- the courses of the plan -/
def Student.planned (s : Student) : List Course :=
  (s.semesters.flatMap (·.entries)).filterMap PlanEntry.taken?

/-- no override puts the course in -/
def Overrides.NeverPutIn (o : Overrides) (k : CourseId) : Prop :=
  ∀ byName ∈ o.values, ∀ v ∈ byName.values, k ∉ v.optIn

instance (o : Overrides) (k : CourseId) : Decidable (o.NeverPutIn k) :=
  inferInstanceAs (Decidable (∀ byName ∈ o.values, ∀ v ∈ byName.values, k ∉ v.optIn))

/-- nothing but an exam without an equivalent has its number: no course of the plan, no equivalent
of an exam, and no course that is put in by hand -/
structure NoEquivalentReserved (table : ExamTable) (s : Student) : Prop where
  planned : ∀ c ∈ s.planned, c.courseId ≠ .noEquivalent
  equivalents : table.NeverLists .noEquivalent
  optIn : s.overrides.NeverPutIn .noEquivalent

instance (table : ExamTable) (s : Student) : Decidable (NoEquivalentReserved table s) :=
  decidable_of_iff
    ((∀ c ∈ s.planned, c.courseId ≠ .noEquivalent) ∧ table.NeverLists .noEquivalent ∧
      s.overrides.NeverPutIn .noEquivalent)
    ⟨fun h => ⟨h.1, h.2.1, h.2.2⟩, fun h => ⟨h.planned, h.equivalents, h.optIn⟩⟩

theorem Student.eq_course_of_noEquivalent {table : ExamTable} {s : Student}
    (h : NoEquivalentReserved table s) {c : Course} (hc : c ∈ s.courses table)
    (hk : c.courseId = .noEquivalent) :
    ∃ e ∈ s.profile.exams, c = e.course .noEquivalent 0.0 := by
  rcases List.mem_append.mp hc with hplan | hexam
  · exact absurd hk (h.planned c hplan)
  · obtain ⟨college, major, e, he, hc⟩ := ExamTable.mem_convert hexam
    exact ⟨e, he, ExamTable.eq_course_of_mem_convertExam h.equivalents hc hk⟩

theorem Student.credits_of_noEquivalent {table : ExamTable} {s : Student}
    (h : NoEquivalentReserved table s) {c : Course} (hc : c ∈ s.courses table)
    (hk : c.courseId = .noEquivalent) : c.credits = 0.0 := by
  obtain ⟨e, _, rfl⟩ := s.eq_course_of_noEquivalent h hc hk
  rfl

theorem Student.eq_of_noEquivalent {table : ExamTable} {s : Student}
    (h : NoEquivalentReserved table s) {c c' : Course} (hc : c ∈ s.courses table)
    (hc' : c' ∈ s.courses table) (hk : c.courseId = .noEquivalent)
    (hsame : c'.uniqueId = c.uniqueId) (hk' : c'.courseId = c.courseId) : c' = c := by
  obtain ⟨e, _, rfl⟩ := s.eq_course_of_noEquivalent h hc hk
  obtain ⟨e', _, rfl⟩ := s.eq_course_of_noEquivalent h hc' (hk'.trans hk)
  have hcode : e'.code = e.code := UniqueId.named.inj hsame
  unfold ExamRecord.course
  rw [hcode]

end DegreeProgress
