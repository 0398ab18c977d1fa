import DegreeProgress.Proofs.Allocation.Contest
import DegreeProgress.Proofs.Audit.Report
import DegreeProgress.Proofs.Audit.Slots

/-!
# Courses that are kept out

A course that is kept out of a requirement is left out where the graphs are made.  The slots do not
look for it again: among the courses that they are given, it lies where a checker takes it.

* `Statistics.counts_keptOut`          so over a list of its own a requirement can be fulfilled by a
                                       course that is kept out of it;
* `Statistics.holdsNoKeptOut_iff`      the slots hold none iff no checker takes one of the list,
                                       as it is with what a graph connects.
-/

namespace DegreeProgress

namespace Statistics

section
variable {α : Type}

/-- no slot holds a course that the requirement keeps out -/
def HoldsNoKeptOut (r : Resolved) (s : Statistics α) : Prop :=
  ∀ bucket ∈ s.perSlot, ∀ c ∈ bucket, r.isOptedOut c.courseId = false

instance (r : Resolved) (s : Statistics α) : Decidable (HoldsNoKeptOut r s) :=
  inferInstanceAs (Decidable (∀ bucket ∈ s.perSlot, ∀ c ∈ bucket, r.isOptedOut c.courseId = false))

variable [Amount α] {r : Resolved}

/-- what is kept out belongs to some slot iff some checker takes it -/
theorem exists_belongs_iff_takes {c : Course} (h : r.isOptedOut c.courseId = true) :
    (∃ i slot, r.slots[i]? = some slot ∧ belongs r slot i c = true) ↔ r.takes c = true := by
  unfold Resolved.takes
  simp only [belongs_eq_accepts (Resolved.isOptedIn_of_isOptedOut h), List.any_eq_true]
  constructor
  · rintro ⟨i, slot, hslot, haccepts⟩
    exact ⟨slot, List.mem_of_getElem? hslot, haccepts⟩
  · rintro ⟨slot, hslot, haccepts⟩
    obtain ⟨i, hi⟩ := List.getElem?_of_mem hslot
    exact ⟨i, slot, hi, haccepts⟩

variable {courses : List Course}

theorem holdsNoKeptOut_of_iff : HoldsNoKeptOut r (.of r courses : Statistics α) ↔
    ∀ c ∈ courses, r.isOptedOut c.courseId = true → r.takes c = false := by
  constructor
  · intro h c hc hout
    rw [← Bool.not_eq_true]
    intro htakes
    obtain ⟨bucket, hbucket, hmem⟩ :=
      (exists_mem_perSlot_of_iff (α := α)).mpr ⟨hc, (exists_belongs_iff_takes hout).mpr htakes⟩
    exact absurd hout (by rw [h bucket hbucket c hmem]; exact Bool.false_ne_true)
  · intro h bucket hbucket c hmem
    rw [← Bool.not_eq_true]
    intro hout
    obtain ⟨hc, hbelongs⟩ := exists_mem_perSlot_of_iff.mp ⟨bucket, hbucket, hmem⟩
    have htakes := (exists_belongs_iff_takes hout).mp hbelongs
    exact absurd htakes (by rw [h c hc hout]; exact Bool.false_ne_true)

theorem of_filter_not_isOptedOut
    (h : ∀ c ∈ courses, r.isOptedOut c.courseId = true → r.takes c = false) :
    (.of r (courses.filter (!r.isOptedOut ·.courseId)) : Statistics α) = .of r courses := by
  apply of_filter
  intro c hc slot hslot i hbelongs
  cases hout : r.isOptedOut c.courseId with
  | false => rfl
  | true =>
    rw [belongs_eq_accepts (Resolved.isOptedIn_of_isOptedOut hout)] at hbelongs
    have htakes : r.takes c = true := List.any_eq_true.mpr ⟨slot, hslot, hbelongs⟩
    rw [h c hc hout] at htakes
    exact absurd htakes Bool.false_ne_true

end

end Statistics

namespace Sample

/-- the core requirement with course 11 kept out by hand -/
def avoided : Resolved :=
  core.resolve {} (.ofList [(⟨"Core"⟩, .ofList [("Core", ⟨[], [⟨11⟩]⟩)])])

end Sample

namespace Statistics

open Sample

/-- **A course that is kept out can count.**  Given to the statistics themselves, course 11 fills
the slot of the requirement that keeps it out, and fulfills it. -/
theorem counts_keptOut :
    avoided.isOptedOut (course 11).courseId = true ∧
    ¬HoldsNoKeptOut avoided (.of avoided [course 11] : Statistics Rat) ∧
    (.of avoided [course 11] : Statistics Rat).fulfilled = 1 ∧
    (.of avoided [course 11] : Statistics Rat).slotsSatisfied = 1 ∧
    (.of avoided [course 11] : Statistics Rat).isFulfilled = true := by
  decide +kernel

/-- **What is kept out counts where a checker takes it.**  A course that is kept out lies in the
slots whose checkers take it.  So the slots hold none iff no checker takes one of the list, and then
the statistics are those of the other courses.  What a graph connects has none to take. -/
theorem holdsNoKeptOut_iff (α : Type) [Amount α] (r : Resolved) (courses : List Course) :
    (∀ c, r.isOptedOut c.courseId = true →
      List.Forall₂ (fun slot bucket => c ∈ bucket ↔ c ∈ courses ∧ slot.checker.accepts c = true)
        r.slots (Statistics.of r courses : Statistics α).perSlot) ∧
    (HoldsNoKeptOut r (.of r courses : Statistics α) ↔
      ∀ c ∈ courses, r.isOptedOut c.courseId = true → r.takes c = false) ∧
    (HoldsNoKeptOut r (.of r courses : Statistics α) →
      (.of r (courses.filter (!r.isOptedOut ·.courseId)) : Statistics α) = .of r courses) ∧
    ∀ requirements : List Resolved, (requirements.map (·.id)).Nodup → r ∈ requirements →
      let a := Allocation.of requirements courses
      ∀ connected ∈ [a.safe.coursesOf r.id, a.dangerous.coursesOf r.id],
        HoldsNoKeptOut r (.of r connected : Statistics α) := by
  refine ⟨fun c hout => ?_, holdsNoKeptOut_of_iff, fun h => ?_, fun requirements hids hr => ?_⟩
  · exact forall₂_mem_perSlot_of (Resolved.isOptedIn_of_isOptedOut hout) courses
  · exact of_filter_not_isOptedOut (holdsNoKeptOut_of_iff.mp h)
  · intro a connected hconnected bucket hbucket c hc
    have hmem := mem_of_mem_perSlot_of hbucket hc
    exact Resolved.isOptedOut_of_isCandidate
      (Allocation.isCandidate_of_connected courses hids hr hconnected hmem)

/-- without course 11 the statistics are the same as over course 12 alone, and the graphs connect no
course to the requirement -/
theorem holdsNoKeptOut_iff_avoided :
    let requirements := [avoided, elective.resolveDefault]
    avoided.isOptedOut (course 11).courseId = true ∧
    HoldsNoKeptOut avoided (.of avoided [course 12] : Statistics Rat) ∧
    (.of avoided ([course 12].filter (!avoided.isOptedOut ·.courseId)) : Statistics Rat)
      = .of avoided [course 12] ∧
    (requirements.map (·.id)).Nodup ∧ avoided ∈ requirements ∧
    HoldsNoKeptOut avoided (.of avoided
      ((Allocation.of requirements courses).dangerous.coursesOf avoided.id) : Statistics Rat) := by
  intro requirements
  have hnone : HoldsNoKeptOut avoided (.of avoided [course 12] : Statistics Rat) := by
    decide +kernel
  have hids : (requirements.map (·.id)).Nodup := by decide
  have hr : avoided ∈ requirements := List.mem_cons_self
  obtain ⟨_, _, hrest, _⟩ := holdsNoKeptOut_iff Rat avoided [course 12]
  obtain ⟨_, _, _, hgraphs⟩ := holdsNoKeptOut_iff Rat avoided courses
  exact ⟨by decide, hnone, hrest hnone, hids, hr,
    hgraphs requirements hids hr _ (List.mem_pair.mpr (Or.inr rfl))⟩

end Statistics

end DegreeProgress
