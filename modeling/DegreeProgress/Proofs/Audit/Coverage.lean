import DegreeProgress.Proofs.Audit.CountedOnce
import DegreeProgress.Proofs.Catalog.WellFormed
import DegreeProgress.Proofs.Decimal.Order
import Mathlib.Data.List.Perm.Subperm
import Mathlib.Order.Bounds.Defs

/-!
# Covered slots

Where a requirement asks for a number of its slots, it asks for the total of the cheapest ones
(`SlotGroup.isLeast_required`).  As many slots that each reach their own minimum have no less
between them (`Statistics.required_le_fulfilled`), so nothing but their number matters
(`Statistics.isFulfilled_iff_covered`).
-/

namespace DegreeProgress

/-! ### the cheapest choice -/

/-- no choice from an increasing list is less in total than its first elements -/
theorem sum_take_le_of_sublist {xs chosen : List Rat} (hxs : xs.Pairwise (· ≤ ·))
    (h : chosen.Sublist xs) : (xs.take chosen.length).sum ≤ chosen.sum := by
  induction xs generalizing chosen with
  | nil => rw [List.sublist_nil.mp h, List.take_nil]
  | cons x xs ih =>
    cases chosen with
    | nil => exact le_refl _
    | cons y chosen =>
      obtain ⟨hx, hxs⟩ := List.pairwise_cons.mp hxs
      have hxy : x ≤ y := by
        rcases List.mem_cons.mp (h.subset List.mem_cons_self) with rfl | hy
        · exact le_refl _
        · exact hx y hy
      rw [List.length_cons, List.take_succ_cons, List.sum_cons, List.sum_cons]
      exact add_le_add hxy (ih hxs h.of_cons_cons)

namespace SlotGroup

open Declared (MinimumFine)

/-- the total minimums of the choices of `n` slots -/
def totals (g : SlotGroup) (n : Nat) : Set Rat :=
  { total | ∃ chosen : List Slot, chosen.Sublist g.slots ∧ chosen.length = n ∧
    (chosen.map (exactValue ·.minCount)).sum = total }

theorem sortedMinimums_perm (g : SlotGroup) :
    g.sortedMinimums.Perm (g.slots.map (·.minCount)) := List.mergeSort_perm _ _

section
variable {g : SlotGroup} (hmins : ∀ slot ∈ g.slots, MinimumFine slot.minCount)
include hmins

theorem sortedMinimums_increasing : (g.sortedMinimums.map exactValue).Pairwise (· ≤ ·) := by
  have hfine : ∀ x ∈ g.sortedMinimums, MinimumFine x := by
    intro x hx
    obtain ⟨slot, hslot, rfl⟩ := List.mem_map.mp (g.sortedMinimums_perm.mem_iff.mp hx)
    exact hmins slot hslot
  have hkeys : g.sortedMinimums.Pairwise fun a b => orderKey a ≤ orderKey b := by
    refine (List.pairwise_mergeSort (fun a b c hab hbc => ?_) (fun a b => ?_) _).imp
      of_decide_eq_true
    · rw [decide_eq_true_eq] at hab hbc ⊢
      exact hab.trans hbc
    · rw [Bool.or_eq_true, decide_eq_true_eq, decide_eq_true_eq]
      exact le_total _ _
  rw [List.pairwise_map]
  exact hkeys.imp_of_mem fun {x y} hx hy hkey =>
    exactValue_le_of_orderKey_le (hfine x hx).1 (hfine y hy).1 (hfine y hy).2 hkey

omit hmins in
theorem required_eq {n : Nat} (hn : g.minSlots = some n) :
    g.required Rat = ((g.sortedMinimums.map exactValue).take n).sum := by
  unfold required
  rw [hn, ← List.map_take]
  exact Amount.sum_eq _

theorem required_le_of_sublist {chosen : List Slot} (hchosen : chosen.Sublist g.slots)
    (hn : g.minSlots = some chosen.length) :
    g.required Rat ≤ (chosen.map (exactValue ·.minCount)).sum := by
  have hperm : (g.sortedMinimums.map exactValue).Perm (g.slots.map (exactValue ·.minCount)) := by
    have h := g.sortedMinimums_perm.map exactValue
    rwa [List.map_map] at h
  -- the chosen minimums are found in the sorted list too, in some order
  obtain ⟨sorted, hsorted, hsub⟩ :=
    (hchosen.map (exactValue ·.minCount)).subperm.trans hperm.symm.subperm
  have hlength : sorted.length = chosen.length := by
    rw [hsorted.length_eq, List.length_map]
  rw [required_eq hn, ← hlength, ← hsorted.sum_eq]
  exact sum_take_le_of_sublist (sortedMinimums_increasing hmins) hsub

theorem isLeast_required {n : Nat} (hn : g.minSlots = some n) (hle : n ≤ g.slots.length) :
    IsLeast (g.totals n) (g.required Rat) := by
  constructor
  · -- the first sorted minimums are those of some slots
    obtain ⟨minimums, hperm, hsub⟩ :=
      (List.take_sublist n g.sortedMinimums).subperm.trans g.sortedMinimums_perm.subperm
    obtain ⟨chosen, hchosen, rfl⟩ := List.sublist_map_iff.mp hsub
    have hlength : g.sortedMinimums.length = g.slots.length := by
      rw [g.sortedMinimums_perm.length_eq, List.length_map]
    refine ⟨chosen, hchosen, ?_, ?_⟩
    · have h := hperm.length_eq
      rw [List.length_map, List.length_take, hlength] at h
      omega
    · have h := (hperm.map exactValue).sum_eq
      rw [List.map_map, List.map_take] at h
      rw [required_eq hn, ← h]
      rfl
  · rintro total ⟨chosen, hchosen, rfl, rfl⟩
    exact required_le_of_sublist hmins hchosen hn

end

end SlotGroup

/-! ### covered slots -/

namespace Statistics

/-- a slot that counts: it has a course, and what its own courses count for reaches its minimum -/
def Covered (group : SlotGroup) (slot : Slot) (bucket : List Course) : Prop :=
  bucket ≠ [] ∧ exactValue slot.minCount ≤ contribution group bucket

theorem satisfies_iff (group : SlotGroup) (slot : Slot) (bucket : List Course) :
    satisfies (α := Rat) group slot bucket = true ↔ Covered group slot bucket := by
  unfold satisfies Covered
  rw [Bool.and_eq_true, Bool.not_eq_true', List.isEmpty_eq_false_iff, Amount.reaches_iff]
  rfl

theorem creditSum_nonneg {bucket : List Course} (h : ∀ c ∈ bucket, 0 ≤ exactValue c.credits) :
    0 ≤ (creditSum bucket : Rat) := by
  unfold creditSum
  rw [Amount.sum_eq]
  exact List.sum_nonneg (List.forall_mem_map.mpr h)

theorem contribution_nonneg {group : SlotGroup} {bucket : List Course}
    (h : ∀ c ∈ bucket, 0 ≤ exactValue c.credits) : 0 ≤ (contribution group bucket : Rat) := by
  unfold contribution
  cases group.counting with
  | courses =>
    cases group.progress with
    | anyCanCount => exact Nat.cast_nonneg _
    | everyCourseNeeded => exact Nat.cast_nonneg _
  | credits =>
    cases group.progress with
    | anyCanCount => exact creditSum_nonneg h
    | everyCourseNeeded =>
      rw [firstRows_eq]
      exact creditSum_nonneg fun c hc => h c ((firstPer_sublist Course.courseId bucket).subset hc)

section
variable {r : Resolved} {group : SlotGroup} {courses : List Course}

theorem length_buckets : (buckets r group courses).length = group.slots.length := by
  unfold buckets
  rw [List.length_map, List.length_zipIdx]

/-- there are `n` covered slots iff `n` of them can be named -/
theorem le_slotsSatisfied_iff (n : Nat) :
    n ≤ (ofGroup r group courses : Statistics Rat).slotsSatisfied ↔
      ∃ chosen : List (Slot × List Course),
        chosen.Sublist (group.slots.zip (buckets r group courses)) ∧ chosen.length = n ∧
          ∀ e ∈ chosen, Covered group e.1 e.2 := by
  show n ≤ List.countP _ _ ↔ _
  rw [List.countP_eq_length_filter]
  constructor
  · intro hle
    refine ⟨_, (List.take_sublist n _).trans List.filter_sublist, List.length_take_of_le hle, ?_⟩
    intro e he
    exact (satisfies_iff ..).mp (List.mem_filter.mp (List.mem_of_mem_take he)).2
  · rintro ⟨chosen, hchosen, rfl, hcovered⟩
    have hself : chosen.filter (fun e => satisfies (α := Rat) group e.1 e.2) = chosen :=
      List.filter_eq_self.mpr fun e he => (satisfies_iff ..).mpr (hcovered e he)
    rw [← hself]
    exact (hchosen.filter _).length_le

section
variable (hcredits : ∀ c ∈ courses, 0 ≤ exactValue c.credits)
include hcredits

theorem contribution_nonneg_of_mem_buckets {bucket : List Course}
    (h : bucket ∈ buckets r group courses) : 0 ≤ (contribution group bucket : Rat) := by
  obtain ⟨e, _, rfl⟩ := List.mem_map.mp h
  exact contribution_nonneg fun c hc => hcredits c (List.mem_filter.mp hc).1

theorem sum_contribution_le_fulfilled {chosen : List (Slot × List Course)}
    (h : chosen.Sublist (group.slots.zip (buckets r group courses))) :
    (chosen.map fun e => (contribution group e.2 : Rat)).sum
      ≤ (ofGroup r group courses : Statistics Rat).fulfilled := by
  have hbuckets : (group.slots.zip (buckets r group courses)).map (·.2)
      = buckets r group courses := List.map_snd_zip length_buckets.le
  have hsub := (h.map (·.2)).map (contribution (α := Rat) group)
  rw [hbuckets, List.map_map] at hsub
  show _ ≤ List.foldl Amount.add Amount.zero _
  rw [Amount.foldl_add_eq]
  refine (hsub.sum_le_sum ?_).trans (le_add_of_nonneg_left (le_refl _))
  intro x hx
  obtain ⟨bucket, hbucket, rfl⟩ := List.mem_map.mp hx
  exact contribution_nonneg_of_mem_buckets hcredits hbucket

open Declared (MinimumFine)

/-- covered slots, as many as are asked for, make the progress that is asked for -/
theorem required_le_fulfilled (hmins : ∀ slot ∈ group.slots, MinimumFine slot.minCount)
    {chosen : List (Slot × List Course)}
    (hchosen : chosen.Sublist (group.slots.zip (buckets r group courses)))
    (hcovered : ∀ e ∈ chosen, Covered group e.1 e.2) (hn : group.minSlots = some chosen.length) :
    group.required Rat ≤ (ofGroup r group courses : Statistics Rat).fulfilled := by
  have hslots : (chosen.map (·.1)).Sublist group.slots := by
    have h := hchosen.map (·.1)
    rwa [List.map_fst_zip length_buckets.ge] at h
  have hrequired := SlotGroup.required_le_of_sublist hmins hslots (by rwa [List.length_map])
  rw [List.map_map] at hrequired
  calc group.required Rat
      ≤ (chosen.map fun e => exactValue e.1.minCount).sum := hrequired
    _ ≤ (chosen.map fun e => (contribution group e.2 : Rat)).sum :=
        List.sum_le_sum fun e he => (hcovered e he).2
    _ ≤ (ofGroup r group courses : Statistics Rat).fulfilled :=
        sum_contribution_le_fulfilled hcredits hchosen

theorem isFulfilled_ofGroup_iff (hmins : ∀ slot ∈ group.slots, MinimumFine slot.minCount)
    {n : Nat} (hn : group.minSlots = some n) :
    (ofGroup r group courses : Statistics Rat).isFulfilled = true ↔
      n ≤ (ofGroup r group courses : Statistics Rat).slotsSatisfied := by
  have hsplit : (ofGroup r group courses : Statistics Rat).isFulfilled = true ↔
      group.required Rat ≤ (ofGroup r group courses : Statistics Rat).fulfilled ∧
        n ≤ (ofGroup r group courses : Statistics Rat).slotsSatisfied := by
    unfold ofGroup
    rw [Bool.and_eq_true, Amount.reaches_iff, hn, Option.all_some, decide_eq_true_eq]
  rw [hsplit, and_iff_right_iff_imp]
  intro hle
  obtain ⟨chosen, hchosen, rfl, hcovered⟩ := (le_slotsSatisfied_iff n).mp hle
  exact required_le_fulfilled hcredits hmins hchosen hcovered hn

end

end

section
open Declared (MinimumFine)

/-- **The number of covered slots decides.**  A requirement for `n` of its slots asks for the total
of its cheapest `n` slots, and is fulfilled iff `n` slots are covered, each by courses of its own.
So a slot without courses never helps, and more in one slot never stands in for another one. -/
theorem isFulfilled_iff_covered {r : Resolved} {group : SlotGroup}
    (hgroup : r.evaluation = .slots group) {n : Nat} (hn : group.minSlots = some n)
    (hle : n ≤ group.slots.length) (hmins : ∀ slot ∈ group.slots, MinimumFine slot.minCount)
    {courses : List Course} (hcredits : ∀ c ∈ courses, 0 ≤ exactValue c.credits) :
    let s : Statistics Rat := .of r courses
    s.required = group.required Rat ∧ IsLeast (group.totals n) (group.required Rat) ∧
    (s.isFulfilled = true ↔ n ≤ s.slotsSatisfied) ∧
    (s.isFulfilled = true ↔ ∃ chosen : List (Slot × List Course),
      chosen.Sublist (group.slots.zip s.perSlot) ∧ chosen.length = n ∧
        ∀ e ∈ chosen, Covered group e.1 e.2) := by
  intro s
  have hs : s = ofGroup r group courses := by
    show Statistics.of r courses = _
    unfold Statistics.of
    rw [hgroup]
  rw [hs]
  have hcount := isFulfilled_ofGroup_iff (r := r) hcredits hmins hn
  exact ⟨rfl, SlotGroup.isLeast_required hmins hn hle, hcount,
    hcount.trans (le_slotsSatisfied_iff n)⟩

end

end Statistics

namespace Sample

/-- two of three slots by credits, one of them without a minimum -/
def foundations : SlotGroup where
  counting := .credits
  progress := .anyCanCount
  slots := [⟨"Graphics", .leaf (.course ⟨13⟩), 0.0⟩, ⟨"Systems", .leaf (.course ⟨12⟩), 3.0⟩,
    ⟨"Theory", .leaf (.course ⟨11⟩), 4.0⟩]
  minSlots := some 2

def foundationsRequirement : Requirement := { core with fulfillment := .fixed foundations }

end Sample

namespace Statistics

open Sample Declared

/-- the credits of the first course are more than the cheapest two slots ask for, but only both
courses cover two slots -/
theorem isFulfilled_iff_covered_foundations :
    (∀ slot ∈ foundations.slots, MinimumFine slot.minCount) ∧
    (∀ c ∈ Sample.courses, 0 ≤ exactValue c.credits) ∧
    IsLeast (foundations.totals 2) 3 ∧
    (.of foundationsRequirement.resolveDefault [course 11] : Statistics Rat).fulfilled = 4 ∧
    ¬(.of foundationsRequirement.resolveDefault [course 11] : Statistics Rat).isFulfilled = true ∧
    (.of foundationsRequirement.resolveDefault Sample.courses : Statistics Rat).isFulfilled
      = true := by
  have hnonneg : ∀ slot ∈ foundations.slots, isFiniteNonneg slot.minCount = true := by
    decide +kernel
  have hmins : ∀ slot ∈ foundations.slots, MinimumFine slot.minCount := fun slot hslot =>
    (Catalog.isFiniteNonneg_iff _).mp (hnonneg slot hslot)
  have hboth : ∀ c ∈ Sample.courses, 0 ≤ exactValue c.credits := by decide +kernel
  have hone : ∀ c ∈ [course 11], 0 ≤ exactValue c.credits := by decide +kernel
  have hlength : 2 ≤ foundations.slots.length := by decide
  have hsorted : foundations.sortedMinimums = [0.0, 3.0, 4.0] :=
    List.mergeSort_of_pairwise (by decide +kernel)
  have hrequired : foundations.required Rat = 3 := by
    rw [SlotGroup.required_eq rfl, hsorted]
    decide +kernel
  obtain ⟨_, hleast, hfirst, _⟩ := isFulfilled_iff_covered
    (r := foundationsRequirement.resolveDefault) rfl rfl hlength hmins hone
  obtain ⟨_, _, hsecond, _⟩ := isFulfilled_iff_covered
    (r := foundationsRequirement.resolveDefault) rfl rfl hlength hmins hboth
  exact ⟨hmins, hboth, hrequired ▸ hleast, by decide +kernel,
    fun h => absurd (hfirst.mp h) (by decide +kernel), hsecond.mpr (by decide +kernel)⟩

end Statistics

end DegreeProgress
