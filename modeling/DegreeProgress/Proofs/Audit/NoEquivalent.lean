import DegreeProgress.Proofs.Audit.CountedOnce
import DegreeProgress.Proofs.Audit.Overrides
import DegreeProgress.Proofs.Audit.Slots
import DegreeProgress.Proofs.Student.Exams

/-!
# Exams without an equivalent

An exam without an equivalent stands in a report as a row with a number of its own.  To a checker it
is a row like any other:

* `Audit.noEquivalent_connected`     one that asks only what a course is not takes it;
* `Audit.noEquivalent_by_checker`    it counts where a checker takes it and nowhere else, and never
                                     for credits.
-/

namespace DegreeProgress

/-! ### rows without credits -/

namespace Statistics

variable {cs : List Course} {k : CourseId}

theorem creditSum_filter_ne (h : ∀ c ∈ cs, c.courseId = k → exactValue c.credits = 0) :
    (creditSum (cs.filter (·.courseId ≠ k)) : Rat) = creditSum cs := by
  unfold creditSum
  rw [Amount.sum_eq, Amount.sum_eq]
  induction cs with
  | nil => rfl
  | cons c cs ih =>
    have hrest := ih fun c' hc' => h c' (List.mem_cons_of_mem c hc')
    rw [List.filter_cons]
    split
    · rw [List.map_cons, List.map_cons, List.sum_cons, List.sum_cons, hrest]
    · rename_i hc
      have hzero : (Amount.ofFloat c.credits : Rat) = 0 :=
        h c List.mem_cons_self (by simpa using hc)
      rw [hrest, List.map_cons, List.sum_cons, hzero, zero_add]

theorem firstRows_filter_ne :
    firstRows [] (cs.filter (·.courseId ≠ k)) = (firstRows [] cs).filter (·.courseId ≠ k) := by
  rw [firstRows_eq, firstRows_eq]
  apply firstPer_filter
  intro c _ c' _ hsame
  rw [hsame]

theorem contribution_filter_ne {group : SlotGroup} (hg : group.counting = .credits)
    (h : ∀ c ∈ cs, c.courseId = k → exactValue c.credits = 0) :
    (contribution group (cs.filter (·.courseId ≠ k)) : Rat) = contribution group cs := by
  unfold contribution
  rw [hg]
  cases group.progress with
  | anyCanCount => exact creditSum_filter_ne h
  | everyCourseNeeded =>
    show (creditSum (firstRows [] _) : Rat) = creditSum (firstRows [] cs)
    rw [firstRows_filter_ne]
    apply creditSum_filter_ne
    intro c hc
    rw [firstRows_eq] at hc
    exact h c ((firstPer_sublist _ _).subset hc)

theorem fulfilled_filter_ne {r : Resolved} (hr : r.evaluation.countedBy = .credits)
    (h : ∀ c ∈ cs, c.courseId = k → exactValue c.credits = 0) :
    (Statistics.of r (cs.filter (·.courseId ≠ k)) : Statistics Rat).fulfilled
      = (Statistics.of r cs : Statistics Rat).fulfilled := by
  unfold Statistics.of
  cases heval : r.evaluation with
  | selfCheck => rfl
  | slots group =>
    have hg : group.counting = .credits := by
      rw [heval] at hr
      dsimp only [Evaluation.countedBy] at hr
      cases hc : group.counting with
      | courses => rw [hc] at hr; cases hr
      | credits => rfl
    have hsame : ∀ p : Course → Bool,
        (contribution group ((cs.filter (·.courseId ≠ k)).filter p) : Rat)
          = contribution group (cs.filter p) := by
      intro p
      rw [List.filter_filter, List.filter_congr fun c _ => Bool.and_comm _ _,
        ← List.filter_filter]
      exact contribution_filter_ne hg fun c hc => h c (List.mem_filter.mp hc).1
    have hbuckets : List.Forall₂ (· = ·)
        ((buckets r group (cs.filter (·.courseId ≠ k))).map (contribution (α := Rat) group))
        ((buckets r group cs).map (contribution (α := Rat) group)) := by
      rw [List.forall₂_map_left_iff, List.forall₂_map_right_iff]
      exact buckets_forall₂ hsame
    rw [List.forall₂_eq_eq_eq] at hbuckets
    show List.foldl Amount.add _ _ = List.foldl Amount.add _ _
    rw [hbuckets]

end Statistics

/-! ### where the rows count -/

theorem Resolved.not_putIn_of_neverPutIn {o : Overrides} {k : CourseId} (h : o.NeverPutIn k)
    (r : Resolved) : ¬r.PutIn o k := by
  rintro ⟨slot, _, v, hv, hk⟩
  obtain ⟨byName, hbyName, hget⟩ := Option.bind_eq_some_iff.mp hv
  exact h byName (SortedMap.mem_values_of_get? hbyName) v (SortedMap.mem_values_of_get? hget) hk

section
variable {catalog : Catalog} {p : Profile} {choices : OptionChoices} {o : Overrides} {r : Resolved}
  (hr : r ∈ catalog.resolve p choices o) {c : Course} (h : o.NeverPutIn c.courseId)
include hr h

theorem Resolved.isOptedIn_of_neverPutIn : r.isOptedIn c.courseId = false := by
  rw [← Bool.not_eq_true, isOptedIn_iff hr]
  exact fun hin => not_putIn_of_neverPutIn h r hin.2

/-- a course that is never put in is a candidate where a checker takes it -/
theorem Resolved.isCandidate_iff_of_neverPutIn : r.isCandidate c = true
    ↔ ¬r.KeptOut o c.courseId ∧ ∃ slot ∈ r.slots, slot.checker.accepts c = true := by
  unfold isCandidate takes
  rw [isOptedIn_of_neverPutIn hr h, Bool.false_or, Bool.and_eq_true, Bool.not_eq_true',
    ← Bool.not_eq_true, isOptedOut_iff hr, List.any_eq_true]

end

namespace Sample

/-- a requirement of any course outside of physical education -/
def openElective : Declared.Catalog where
  university := [
    { name := "Elective", description := "", source := "", fulfilledBy := .courses
      slots := { checkers := [.expression "!subject(\"PE\")"]
                 minCounts := [1.0], names := ["Any"] }
      choices := [], doubleCounting := false }]
  colleges := {}
  majors := {}
  minors := {}
  grad := {}

/-- a student with an empty plan and an exam that no table knows -/
def examinee : Student where
  semesters := []
  profile := ⟨some "EN", [], [], none, [⟨.ap, "Latin", 5⟩], false⟩
  choices := {}
  overrides := {}

end Sample

namespace Audit

open Sample

/-- **A row without an equivalent can count.**  The exam is the student's only course, and it
fulfills the requirement for sure. -/
theorem noEquivalent_connected : ∃ catalog, Catalog.compile openElective = .ok catalog ∧
    NoEquivalentReserved default examinee ∧
    ∃ r ∈ catalog.resolve examinee.profile examinee.choices examinee.overrides,
      (∃ c ∈ (run Rat default catalog default examinee).allocation.safe.coursesOf r.id,
        c.courseId = .noEquivalent) ∧
      (∃ c ∈ (run Rat default catalog default examinee).allocation.dangerous.coursesOf r.id,
        c.courseId = .noEquivalent) ∧
      ∃ e ∈ (run Rat default catalog default examinee).report.entries, e.requirement.id = r.id ∧
        (∃ bucket ∈ e.fulfillment.safe.perSlot, ∃ c ∈ bucket, c.courseId = .noEquivalent) ∧
        e.fulfillment.safe.isFulfilled = true :=
  exists_ok_of_any (by decide +kernel)

/-- **A checker decides.**  Where its number is reserved, an exam without an equivalent is connected
to a requirement iff an active slot takes it and nothing keeps it out.  Once connected, it lies in
the slots that take it.  It brings a requirement of credits no further. -/
theorem noEquivalent_by_checker (options : AuditOptions) {catalog : Catalog} {table : ExamTable}
    {s : Student} (hres : NoEquivalentReserved table s) {r : Resolved}
    (hr : r ∈ catalog.resolve s.profile s.choices s.overrides) :
    let a := (run Rat options catalog table s).allocation
    let e : ReportEntry Rat := entry a r
    (∀ c ∈ s.courses table, c.courseId = .noEquivalent →
      (c ∈ a.dangerous.coursesOf r.id ↔ ¬r.KeptOut s.overrides .noEquivalent ∧
        ∃ slot ∈ r.slots, slot.checker.accepts c = true) ∧
      List.Forall₂ (fun (slot : Slot) bucket => c ∈ bucket ↔
          c ∈ a.safe.coursesOf r.id ∧ slot.checker.accepts c = true)
        r.slots e.fulfillment.safe.perSlot ∧
      List.Forall₂ (fun (slot : Slot) bucket => c ∈ bucket ↔
          c ∈ a.dangerous.coursesOf r.id ∧ slot.checker.accepts c = true)
        r.slots e.fulfillment.dangerous.perSlot) ∧
    (r.evaluation.countedBy = .credits →
      (Statistics.of r ((a.safe.coursesOf r.id).filter (·.courseId ≠ .noEquivalent))).fulfilled
        = e.fulfillment.safe.fulfilled ∧
      (Statistics.of r
          ((a.dangerous.coursesOf r.id).filter (·.courseId ≠ .noEquivalent))).fulfilled
        = e.fulfillment.dangerous.fulfilled) := by
  intro a e
  have hids := catalog.nodup_ids_resolve s.profile s.choices s.overrides
  have hdangerous := Allocation.coursesOf_dangerous_sublist (s.courses table) hids hr
  have hsafe := (Allocation.coursesOf_safe_sublist (s.courses table) hids r.id).trans hdangerous
  constructor
  · intro c hc hk
    have hnever : s.overrides.NeverPutIn c.courseId := hk ▸ hres.optIn
    have hopted := Resolved.isOptedIn_of_neverPutIn hr hnever
    constructor
    · have hsame : ∀ c' ∈ s.courses table, c'.identities = c.identities → c' = c := by
        intro c' hc' hids'
        obtain ⟨hu, hk'⟩ := (c'.identities_eq_iff c).mp hids'
        exact Student.eq_of_noEquivalent hres hc hc' hk hu hk'
      rw [← hk, ← Resolved.isCandidate_iff_of_neverPutIn hr hnever]
      exact Allocation.mem_dangerous_iff_of_unique (s.courses table) hids hr hc hsame
    · exact ⟨Statistics.forall₂_mem_perSlot_of hopted _, Statistics.forall₂_mem_perSlot_of hopted _⟩
  · intro hcredits
    have hzero : ∀ c ∈ s.courses table, c.courseId = .noEquivalent →
        exactValue c.credits = 0 := by
      intro c hc hk
      rw [Student.credits_of_noEquivalent hres hc hk]
      decide +kernel
    exact ⟨Statistics.fulfilled_filter_ne hcredits fun c hc => hzero c (hsafe.subset hc),
      Statistics.fulfilled_filter_ne hcredits fun c hc => hzero c (hdangerous.subset hc)⟩

/-- the exam is connected, since it is not one in physical education -/
theorem noEquivalent_by_checker_examinee :
    ∃ catalog, Catalog.compile openElective = .ok catalog ∧ NoEquivalentReserved default examinee ∧
      ∃ r ∈ catalog.resolve examinee.profile examinee.choices examinee.overrides,
        ∃ c ∈ (run Rat default catalog default examinee).allocation.dangerous.coursesOf r.id,
          c.courseId = .noEquivalent := by
  have hres : NoEquivalentReserved default examinee := by decide +kernel
  have htakes : ∃ catalog, Catalog.compile openElective = .ok catalog ∧
      ∃ r ∈ catalog.resolve examinee.profile examinee.choices examinee.overrides,
        r.isOptedOut .noEquivalent = false ∧ ∃ c ∈ examinee.courses default,
          c.courseId = .noEquivalent ∧ ∃ slot ∈ r.slots, slot.checker.accepts c = true :=
    exists_ok_of_any (by decide +kernel)
  obtain ⟨catalog, hcatalog, r, hr, hout, c, hc, hk, hslot⟩ := htakes
  have hkept : ¬r.KeptOut examinee.overrides .noEquivalent := by
    rw [← Resolved.isOptedOut_iff hr, hout]
    exact Bool.false_ne_true
  obtain ⟨hconnected, _⟩ := (noEquivalent_by_checker default hres hr).1 c hc hk
  exact ⟨catalog, hcatalog, hres, r, hr, c, hconnected.mpr ⟨hkept, hslot⟩, hk⟩

end Audit

end DegreeProgress
