import DegreeProgress.Proofs.Allocation.Shared
import DegreeProgress.Proofs.Audit.Report
import DegreeProgress.Proofs.Audit.Statistics

/-!
# The two ends of a report

A report gives the progress in every requirement twice, from the safe and from the dangerous graph.

* `Audit.safe_eq_dangerous_of_not_doubleCounted`   the ends differ by identities with a warning
                                                   only;
* `Audit.atMost_of_mem_entries`                    the safe end is no more than the dangerous end.

The second one needs credits that are not negative, sums without rounding, and a requirement that
does not count credits once for each catalog course.
-/

namespace DegreeProgress

/-- a requirement that counts courses, or the credits of all rows, or nothing -/
def Evaluation.CountsRows : Evaluation → Prop
  | selfCheck => True
  | slots group => group.CountsRows

theorem Statistics.of_atMost {r : Resolved} (hrows : r.evaluation.CountsRows)
    {cs ds : List Course} (h : Grows cs ds) : AtMost (.of r cs) (.of r ds) := by
  unfold Statistics.of
  cases he : r.evaluation with
  | selfCheck => exact AtMost.refl _
  | slots group =>
    rw [he] at hrows
    exact ofGroup_atMost hrows h

namespace Audit

section
variable (α : Type) [Amount α] (options : AuditOptions) (catalog : Catalog) (table : ExamTable)
  (s : Student)

theorem allocation_run : (run α options catalog table s).allocation
    = .of (catalog.resolve s.profile s.choices s.overrides) (s.courses table) := rfl

/-- **Warnings explain all doubt.**  The graphs connect a requirement to the same rows of an
identity without a warning, so a report without warnings has two equal ends in every entry. -/
theorem safe_eq_dangerous_of_not_doubleCounted :
    (∀ u, u ∉ (run α options catalog table s).allocation.doubleCounted → ∀ id,
      ((run α options catalog table s).allocation.safe.coursesOf id).filter
          (fun c => c.uniqueId = u)
        = ((run α options catalog table s).allocation.dangerous.coursesOf id).filter
            fun c => c.uniqueId = u) ∧
    ((run α options catalog table s).report.doubleCounted = ∅ →
      ∀ e ∈ (run α options catalog table s).report.entries,
        e.fulfillment.safe = e.fulfillment.dangerous) := by
  have hids := catalog.nodup_ids_resolve s.profile s.choices s.overrides
  constructor
  · intro u hwarn id
    rw [allocation_run] at hwarn ⊢
    exact Allocation.filter_safe_eq_filter_dangerous (s.courses table) hids hwarn id
  · intro hwarn e he
    rcases mem_entries_run he with ⟨college, hc⟩ | ⟨r, _, rfl⟩
    · exact safe_eq_dangerous_of_mem_collegeEntries hc
    · have heq := Allocation.coursesOf_safe_eq_dangerous (s.courses table) hids hwarn r.id
      show Statistics.of r _ = Statistics.of r _
      rw [allocation_run, heq]

end

section
open Sample

/-- course 12 has no warning in a plan of both courses, and a plan of course 12 has none at all -/
theorem safe_eq_dangerous_of_not_doubleCounted_sample :
    (((run Float default catalog default (student [11, 12])).allocation.safe.coursesOf
        elective.id).filter (fun c => c.uniqueId = .numeric 12)
      = ((run Float default catalog default (student [11, 12])).allocation.dangerous.coursesOf
          elective.id).filter fun c => c.uniqueId = .numeric 12) ∧
    ∀ e ∈ (run Float default catalog default (student [12])).report.entries,
      e.fulfillment.safe = e.fulfillment.dangerous := by
  have hwarn : UniqueId.numeric 12 ∉
      (run Float default catalog default (student [11, 12])).allocation.doubleCounted := by
    decide +kernel
  have hnone : (run Float default catalog default (student [12])).report.doubleCounted = ∅ := by
    decide +kernel
  exact ⟨(safe_eq_dangerous_of_not_doubleCounted _ _ _ _ _).1 _ hwarn _,
    (safe_eq_dangerous_of_not_doubleCounted _ _ _ _ _).2 hnone⟩

end

/-- **The safe end is a lower bound.** -/
theorem atMost_of_mem_entries {options : AuditOptions} {catalog : Catalog} {table : ExamTable}
    {s : Student} (hcredits : ∀ c ∈ s.courses table, 0 ≤ exactValue c.credits)
    {e : ReportEntry Rat} (he : e ∈ (run Rat options catalog table s).report.entries)
    (hrows : ∀ r ∈ catalog.resolve s.profile s.choices s.overrides, r.id = e.requirement.id →
      r.evaluation.CountsRows) :
    Statistics.AtMost e.fulfillment.safe e.fulfillment.dangerous := by
  have hids := catalog.nodup_ids_resolve s.profile s.choices s.overrides
  rcases mem_entries_run he with ⟨college, hc⟩ | ⟨r, hr, rfl⟩
  · rw [safe_eq_dangerous_of_mem_collegeEntries hc]
    exact Statistics.AtMost.refl _
  · apply Statistics.of_atMost (hrows r hr rfl)
    rw [allocation_run]
    refine ⟨Allocation.coursesOf_safe_sublist (s.courses table) hids r.id, fun c hc => ?_⟩
    exact hcredits c (Allocation.mem_dangerous (s.courses table) hids hr hc).1

section
open Sample

/-- the elective has course 12 for sure, and both courses at best -/
theorem atMost_of_mem_entries_sample :
    Statistics.AtMost
      (.of elective.resolveDefault
        ((run Rat default catalog default (student [11, 12])).allocation.safe.coursesOf
          elective.id))
      (.of elective.resolveDefault
        ((run Rat default catalog default (student [11, 12])).allocation.dangerous.coursesOf
          elective.id)) := by
  have hcredits : ∀ c ∈ (student [11, 12]).courses default, 0 ≤ exactValue c.credits := by
    decide +kernel
  have he : entry (run Rat default catalog default (student [11, 12])).allocation
      elective.resolveDefault ∈
        (run Rat default catalog default (student [11, 12])).report.entries :=
    List.mem_of_getElem? (i := 3) (by rfl)
  apply atMost_of_mem_entries hcredits he
  intro r hr _
  rw [show catalog.resolve _ _ _ = requirements from rfl] at hr
  rcases List.mem_pair.mp hr with rfl | rfl
  · exact Or.inl rfl
  · exact Or.inl rfl

end

end Audit

end DegreeProgress
