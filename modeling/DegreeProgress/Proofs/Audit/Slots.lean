import DegreeProgress.Audit.Statistics
import DegreeProgress.Proofs.Sorted.Views
import Mathlib.Data.List.Forall2

/-!
# The courses of a slot

A course that is put into a requirement by hand lies in the slots into which it is put
(`Statistics.belongs_of_isOptedIn`), and any other one in the slots whose checkers take it
(`Statistics.belongs_eq_accepts`).  So each slot of a requirement is a choice from its courses
(`Statistics.perSlot_of`), and courses that belong to no slot do not matter (`Statistics.of_filter`).
-/

namespace DegreeProgress

theorem Resolved.isEmpty_optedInSlots (r : Resolved) (k : CourseId) :
    (r.optedInSlots k).isEmpty = !r.isOptedIn k := by
  unfold optedInSlots isOptedIn
  cases r.isOptedOut k with
  | true => rfl
  | false =>
    rw [if_neg Bool.false_ne_true, Bool.not_false, Bool.true_and, Bool.eq_iff_iff,
      Bool.not_eq_true', List.isEmpty_iff, List.eq_nil_iff_forall_not_mem, List.any_eq_false]
    have hmem := mem_positions_iff r.overrides fun v => v.optIn.contains k
    constructor
    · intro h v hv hk
      obtain ⟨i, hi⟩ := List.getElem?_of_mem hv
      exact h i ((hmem i).mpr ⟨v, hi, hk⟩)
    · intro h i hi
      obtain ⟨v, hv, hk⟩ := (hmem i).mp hi
      exact h v (List.mem_of_getElem? hv) hk

namespace Statistics

section
variable {r : Resolved} {c : Course}

theorem belongs_of_isOptedIn (h : r.isOptedIn c.courseId = true) (slot : Slot) (i : Nat) :
    belongs r slot i c = true ↔ i ∈ r.optedInSlots c.courseId := by
  show (if (r.optedInSlots c.courseId).isEmpty then _ else _) = true ↔ _
  rw [r.isEmpty_optedInSlots, h, Bool.not_true, if_neg Bool.false_ne_true, List.contains_iff_mem]

theorem belongs_eq_accepts (h : r.isOptedIn c.courseId = false) (slot : Slot) (i : Nat) :
    belongs r slot i c = slot.checker.accepts c := by
  show (if (r.optedInSlots c.courseId).isEmpty then _ else _) = _
  rw [r.isEmpty_optedInSlots, h, Bool.not_false, if_pos rfl]

end

variable {α : Type} [Amount α]

theorem perSlot_of (r : Resolved) (courses : List Course) :
    (Statistics.of r courses : Statistics α).perSlot
      = r.slots.zipIdx.map fun e => courses.filter (belongs r e.1 e.2) := by
  unfold Statistics.of Resolved.slots
  cases r.evaluation with
  | selfCheck => rfl
  | slots group => rfl

theorem perSlot_of_perm (r : Resolved) {courses courses' : List Course}
    (h : courses.Perm courses') :
    List.Forall₂ List.Perm (Statistics.of r courses : Statistics α).perSlot
      (Statistics.of r courses' : Statistics α).perSlot := by
  rw [perSlot_of, perSlot_of, List.forall₂_map_left_iff, List.forall₂_map_right_iff]
  exact List.forall₂_same.mpr fun e _ => h.filter (belongs r e.1 e.2)

theorem getElem?_perSlot_of (r : Resolved) (courses : List Course) (i : Nat) :
    (Statistics.of r courses : Statistics α).perSlot[i]?
      = r.slots[i]?.map fun slot => courses.filter (belongs r slot i) := by
  rw [perSlot_of, List.getElem?_map, List.getElem?_zipIdx, Option.map_map, Nat.zero_add]
  rfl

theorem length_perSlot_of (r : Resolved) (courses : List Course) :
    (Statistics.of r courses : Statistics α).perSlot.length = r.slots.length := by
  rw [perSlot_of, List.length_map, List.length_zipIdx]

theorem exists_mem_perSlot_of_iff {r : Resolved} {courses : List Course} {c : Course} :
    (∃ bucket ∈ (Statistics.of r courses : Statistics α).perSlot, c ∈ bucket) ↔
      c ∈ courses ∧ ∃ i slot, r.slots[i]? = some slot ∧ belongs r slot i c = true := by
  constructor
  · rintro ⟨bucket, hbucket, hc⟩
    obtain ⟨i, hi⟩ := List.getElem?_of_mem hbucket
    rw [getElem?_perSlot_of, Option.map_eq_some_iff] at hi
    obtain ⟨slot, hslot, rfl⟩ := hi
    obtain ⟨hmem, hbelongs⟩ := List.mem_filter.mp hc
    exact ⟨hmem, i, slot, hslot, hbelongs⟩
  · rintro ⟨hmem, i, slot, hslot, hbelongs⟩
    have hbucket : (Statistics.of r courses : Statistics α).perSlot[i]?
        = some (courses.filter (belongs r slot i)) := by
      rw [getElem?_perSlot_of, hslot, Option.map_some]
    exact ⟨_, List.mem_of_getElem? hbucket, List.mem_filter.mpr ⟨hmem, hbelongs⟩⟩

theorem mem_of_mem_perSlot_of {r : Resolved} {courses bucket : List Course}
    (h : bucket ∈ (Statistics.of r courses : Statistics α).perSlot) {c : Course} (hc : c ∈ bucket) :
    c ∈ courses := (exists_mem_perSlot_of_iff.mp ⟨bucket, h, hc⟩).1

/-- slot by slot, what is not put in by hand lies where a checker takes it -/
theorem forall₂_mem_perSlot_of {r : Resolved} {c : Course} (h : r.isOptedIn c.courseId = false)
    (courses : List Course) :
    List.Forall₂ (fun slot bucket => c ∈ bucket ↔ c ∈ courses ∧ slot.checker.accepts c = true)
      r.slots (Statistics.of r courses : Statistics α).perSlot := by
  rw [perSlot_of, List.forall₂_map_right_iff]
  nth_rewrite 1 [← List.zipIdx_map_fst 0 r.slots]
  rw [List.forall₂_map_left_iff]
  apply List.forall₂_same.mpr
  rintro ⟨slot, i⟩ _
  rw [List.mem_filter, belongs_eq_accepts h]

section
variable {r : Resolved} {courses : List Course} {p : Course → Bool}

theorem buckets_filter {group : SlotGroup}
    (h : ∀ c ∈ courses, ∀ slot ∈ group.slots, ∀ i, belongs r slot i c = true → p c = true) :
    buckets r group (courses.filter p) = buckets r group courses := by
  unfold buckets
  apply List.map_congr_left
  rintro ⟨slot, i⟩ he
  show (courses.filter p).filter (belongs r slot i) = courses.filter (belongs r slot i)
  have hslot : slot ∈ group.slots := List.mem_of_getElem? (List.mem_zipIdx_iff_getElem?.mp he)
  rw [List.filter_filter]
  apply List.filter_congr
  intro c hc
  rw [Bool.and_eq_left_iff_imp]
  exact h c hc slot hslot i

theorem of_filter
    (h : ∀ c ∈ courses, ∀ slot ∈ r.slots, ∀ i, belongs r slot i c = true → p c = true) :
    (Statistics.of r (courses.filter p) : Statistics α) = Statistics.of r courses := by
  unfold Statistics.of
  unfold Resolved.slots at h
  cases heval : r.evaluation with
  | selfCheck => rfl
  | slots group =>
    rw [heval] at h
    show ofGroup r group _ = ofGroup r group _
    unfold ofGroup
    rw [buckets_filter h]

end

end Statistics

end DegreeProgress
