import DegreeProgress.Audit.Basic
import DegreeProgress.Proofs.Allocation.Candidates
import DegreeProgress.Proofs.FirstRows
import DegreeProgress.Proofs.Sorted.Views

/-!
# What a report is made of

* `Catalog.nodup_ids_resolve`   the resolved requirements of a student have ids of their own;
* `Audit.mem_entries_run`       an entry of a report is one of the college's own, or that of a
                                resolved requirement.
-/

namespace DegreeProgress

/-! ### the ids of resolved requirements -/

theorem distinctById_eq (rs : List Requirement) : distinctById {} rs = firstPer (·.id) rs := by
  have h := filter_firstPer_eq (·.id) (fun (seen : SortedSet RequirementId) k => k ∈ seen)
    SortedSet.insert (fun _ _ _ => SortedSet.mem_insert) distinctById (fun _ => rfl)
    (fun _ _ _ => rfl) {} rs
  rw [h, List.filter_eq_self]
  exact fun r _ => decide_eq_true (SortedSet.not_mem_empty r.id)

theorem Catalog.nodup_ids_resolve (c : Catalog) (p : Profile) (choices : OptionChoices)
    (overrides : Overrides) : ((c.resolve p choices overrides).map (·.id)).Nodup := by
  unfold Catalog.resolve
  rw [List.map_map, distinctById_eq]
  exact nodup_map_firstPer (·.id) (c.applicable p)

/-! ### entries -/

namespace Audit

variable {α : Type} [Amount α]

theorem safe_eq_dangerous_of_mem_collegeEntries {options : AuditOptions} {p : Profile}
    {courses : List Course} {college : String} {e : ReportEntry α}
    (h : e ∈ collegeEntries options p courses college) :
    e.fulfillment.safe = e.fulfillment.dangerous := by
  unfold collegeEntries at h
  rcases List.mem_append.mp h with h | h
  · rw [Option.mem_toList] at h
    unfold CreditPolicy.entry? at h
    split at h
    · cases h
    · obtain ⟨eligibility, _, rfl⟩ := Option.map_eq_some_iff.mp h
      rfl
  · split at h
    · rw [List.mem_singleton.mp h]
      rfl
    · exact absurd h List.not_mem_nil

theorem mem_entries_run {options : AuditOptions} {catalog : Catalog} {table : ExamTable}
    {s : Student} {e : ReportEntry α}
    (h : e ∈ (run α options catalog table s).report.entries) :
    (∃ college, e ∈ collegeEntries options s.profile (s.courses table) college) ∨
      ∃ r ∈ catalog.resolve s.profile s.choices s.overrides,
        e = entry (run α options catalog table s).allocation r := by
  obtain ⟨g, hg, he⟩ := List.mem_flatMap.mp h
  obtain ⟨key, _, rfl⟩ := List.mem_map.mp hg
  unfold group at he
  rcases List.mem_append.mp he with he | he
  · split at he
    · exact Or.inl ⟨key.2, he⟩
    · exact absurd he List.not_mem_nil
  · obtain ⟨r, hr, rfl⟩ := List.mem_map.mp he
    exact Or.inr ⟨r, (List.mem_filter.mp hr).1, rfl⟩

end Audit

/-! ### a small catalog -/

/-- a result with a property that can be decided is found by computing it -/
theorem exists_ok_of_any {ε α : Type} {x : Except ε α} {p : α → Prop} [DecidablePred p]
    (h : x.toOption.any (fun a => p a) = true) : ∃ a, x = .ok a ∧ p a := by
  cases x with
  | error e => exact absurd h Bool.false_ne_true
  | ok a => exact ⟨a, rfl, of_decide_eq_true h⟩

namespace Sample

def catalog : Catalog := ⟨[core, elective], {}, {}, {}, {}⟩

/-- a student of one college with some courses in one semester -/
def student (ns : List UInt64) : Student where
  semesters := [⟨2024, .fall, ns.map fun n => .course (planned n)⟩]
  profile := ⟨some "AS1", [], [], none, [], false⟩
  choices := {}
  overrides := {}

end Sample

end DegreeProgress
