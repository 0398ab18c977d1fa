import DegreeProgress.Proofs.Allocation.Contest
import DegreeProgress.Proofs.Audit.Shape

/-!
# What is connected counts

Courses are matched twice: row by row for the graphs, and then course by course for the slots of the
statistics.  Both times the same courses are matched.

* `Resolved.exists_belongs`           a candidate belongs to a slot;
* `Resolved.isCandidate_of_belongs`   and what belongs to one is a candidate, unless it is kept out;
* `Statistics.of_filter_isCandidate`  so the statistics of a list are those of its candidates;
* `Allocation.connected_counts`       and nothing that is connected is lost.
-/

namespace DegreeProgress

/-! ### candidates and slots -/

/-- every override is that of an active slot -/
def Resolved.Fits (r : Resolved) : Prop := r.overrides.length ≤ r.slots.length

theorem Requirement.fits_resolve (q : Requirement) (choices : OptionChoices) (o : Overrides) :
    (q.resolve choices o).Fits := by
  unfold Resolved.Fits resolve
  cases q.evaluate (choices.get? q.id) with
  | mk evaluation chosenOption =>
    cases evaluation with
    | selfCheck => exact Nat.le_refl 0
    | slots group => exact Nat.le_of_eq (group.length_selections _)

namespace Resolved

variable {r : Resolved} {c : Course}

theorem lt_length_of_mem_optedInSlots {k : CourseId} {i : Nat} (h : i ∈ r.optedInSlots k) :
    i < r.overrides.length := by
  unfold optedInSlots at h
  split at h
  · exact absurd h List.not_mem_nil
  · obtain ⟨selection, hi, _⟩ := (mem_positions_iff r.overrides (·.optIn.contains k) i).mp h
    exact (List.getElem?_eq_some_iff.mp hi).1

theorem exists_belongs (hfits : r.Fits) (h : r.isCandidate c = true) :
    ∃ i slot, r.slots[i]? = some slot ∧ Statistics.belongs r slot i c = true := by
  cases hin : r.isOptedIn c.courseId with
  | true =>
    -- it is put into some override, and every override has its slot
    have hsome := r.isEmpty_optedInSlots c.courseId
    rw [hin, Bool.not_true, List.isEmpty_eq_false_iff] at hsome
    obtain ⟨i, hi⟩ := List.exists_mem_of_ne_nil _ hsome
    have hlt : i < r.slots.length := Nat.lt_of_lt_of_le (lt_length_of_mem_optedInSlots hi) hfits
    exact ⟨i, r.slots[i], List.getElem?_eq_getElem hlt,
      (Statistics.belongs_of_isOptedIn hin _ i).mpr hi⟩
  | false =>
    have hmatched := isMatched_of_isCandidate h hin
    unfold isMatched at hmatched
    obtain ⟨slot, hslot, haccepts⟩ := List.any_eq_true.mp (Bool.and_eq_true_iff.mp hmatched).2
    obtain ⟨i, hi⟩ := List.getElem?_of_mem hslot
    exact ⟨i, slot, hi, (Statistics.belongs_eq_accepts hin slot i).trans haccepts⟩

theorem isCandidate_of_belongs (hout : r.isOptedOut c.courseId = false) {slot : Slot}
    (hslot : slot ∈ r.slots) {i : Nat} (h : Statistics.belongs r slot i c = true) :
    r.isCandidate c = true := by
  cases hin : r.isOptedIn c.courseId with
  | true => exact isCandidate_of_isOptedIn hin
  | false =>
    rw [Statistics.belongs_eq_accepts hin] at h
    have htakes : r.takes c = true := List.any_eq_true.mpr ⟨slot, hslot, h⟩
    unfold isCandidate
    rw [hout, htakes, Bool.or_true]
    rfl

end Resolved

/-! ### statistics -/

namespace Statistics

variable {α : Type} [Amount α] {r : Resolved} {courses : List Course}

theorem exists_mem_perSlot_of (hfits : r.Fits) {c : Course} (hc : c ∈ courses)
    (h : r.isCandidate c = true) :
    ∃ bucket ∈ (Statistics.of r courses : Statistics α).perSlot, c ∈ bucket :=
  exists_mem_perSlot_of_iff.mpr ⟨hc, Resolved.exists_belongs hfits h⟩

theorem of_filter_isCandidate (hout : ∀ c ∈ courses, r.isOptedOut c.courseId = false) :
    (Statistics.of r (courses.filter r.isCandidate) : Statistics α) = Statistics.of r courses :=
  of_filter fun c hc _ hslot _ h => Resolved.isCandidate_of_belongs (hout c hc) hslot h

end Statistics

namespace Allocation

/-- **Graphs and statistics agree.**  Every course that is connected to a requirement lies in one of
its slots.  If the requirement keeps out no course, its statistics are the same over what the
dangerous graph connects to it as over the whole list. -/
theorem connected_counts (α : Type) [Amount α] {requirements : List Resolved}
    (hids : (requirements.map (·.id)).Nodup) {courses : List Course}
    (hcourses : (courses.map Course.identities).Nodup) {r : Resolved} (hr : r ∈ requirements)
    (hfits : r.Fits) :
    let a := Allocation.of requirements courses
    (∀ connected ∈ [a.safe.coursesOf r.id, a.dangerous.coursesOf r.id], ∀ c ∈ connected,
      ∃ bucket ∈ (Statistics.of r connected : Statistics α).perSlot, c ∈ bucket) ∧
    ((∀ c ∈ courses, r.isOptedOut c.courseId = false) →
      (Statistics.of r (a.dangerous.coursesOf r.id) : Statistics α) = Statistics.of r courses) := by
  intro a
  constructor
  · intro connected hconnected c hc
    exact Statistics.exists_mem_perSlot_of hfits hc
      (isCandidate_of_connected courses hids hr hconnected hc)
  · intro hout
    -- distinct rows all stay in the graph
    have hdistinct : ((courses.filter r.isCandidate).map Course.identities).Nodup :=
      hcourses.sublist (List.filter_sublist.map _)
    rw [coursesOf_dangerous courses hids hr, firstPer_eq_self _ hdistinct]
    exact Statistics.of_filter_isCandidate hout

end Allocation

namespace Sample

/-- the core requirement with course 12 put in by hand -/
def extended : Resolved :=
  core.resolve {} (.ofList [(⟨"Core"⟩, .ofList [("Core", ⟨[⟨12⟩], []⟩)])])

end Sample

namespace Allocation

open Sample

/-- both courses count for the core requirement: one is matched, and one is put in -/
theorem connected_counts_extended :
    let requirements := [extended, elective.resolveDefault]
    (requirements.map (·.id)).Nodup ∧ (courses.map Course.identities).Nodup ∧
    extended ∈ requirements ∧ extended.Fits ∧
    (∀ c ∈ courses, extended.isOptedOut c.courseId = false) ∧
    (Statistics.of extended ((Allocation.of requirements courses).dangerous.coursesOf ⟨"Core"⟩)
      : Statistics Rat) = Statistics.of extended courses := by
  intro requirements
  have hids : (requirements.map (·.id)).Nodup := by decide
  have hcourses : (courses.map Course.identities).Nodup := by decide
  have hr : extended ∈ requirements := List.mem_cons_self
  have hfits : extended.Fits := core.fits_resolve _ _
  have hout : ∀ c ∈ courses, extended.isOptedOut c.courseId = false := by decide
  exact ⟨hids, hcourses, hr, hfits, hout, (connected_counts Rat hids hcourses hr hfits).2 hout⟩

end Allocation

end DegreeProgress
