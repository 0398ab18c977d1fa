import DegreeProgress.Audit.Statistics
import Mathlib.Algebra.Order.BigOperators.Group.List
import Mathlib.Algebra.Order.Ring.Rat

/-!
# Statistics grow with the courses

More courses never make less progress, in exact arithmetic and with credits that are not negative:

* `Statistics.buckets_forall₂`          what holds of the courses chosen by any test holds of every
                                        slot;
* `Statistics.contribution_mono`        a slot counts for no less, unless it counts the credits of
                                        a catalog course once (`SlotGroup.CountsRows`);
* `Statistics.ofGroup_atMost_of_noLess` where every slot counts for no less, the progress of the
                                        whole requirement is no less;
* `Statistics.ofGroup_atMost`           so it is with more courses.
-/

namespace DegreeProgress

/-! ### exact sums -/

namespace Amount

theorem foldl_add_eq (xs : List Rat) (a : Rat) : xs.foldl Amount.add a = a + xs.sum := by
  induction xs generalizing a with
  | nil => simp
  | cons x xs ih =>
    rw [List.foldl_cons, ih, List.sum_cons, ← add_assoc]
    rfl

theorem sum_eq (xs : List Rat) : Amount.sum xs = xs.sum := by
  unfold Amount.sum
  rw [foldl_add_eq]
  exact zero_add _

theorem ofCourses_mono {m n : Nat} (h : m ≤ n) :
    (Amount.ofCourses m : Rat) ≤ Amount.ofCourses n := by
  have hmin : Nat.min m maxCount ≤ Nat.min n maxCount := by
    show Min.min m maxCount ≤ Min.min n maxCount
    omega
  show ((Nat.min m maxCount : Nat) : Rat) ≤ ((Nat.min n maxCount : Nat) : Rat)
  exact_mod_cast hmin

theorem reaches_iff (a b : Rat) : Amount.reaches a b = true ↔ b ≤ a := decide_eq_true_iff

end Amount

/-- the rows of a slot all count: the group counts courses, or all credits -/
def SlotGroup.CountsRows (g : SlotGroup) : Prop :=
  g.counting = .courses ∨ g.progress = .anyCanCount

namespace Statistics

/-- a course list that another one extends, where no credits are negative -/
def Grows (bucket bucket' : List Course) : Prop :=
  bucket.Sublist bucket' ∧ ∀ c ∈ bucket', 0 ≤ exactValue c.credits

/-- no more progress, of the same requirement -/
structure AtMost (s d : Statistics Rat) : Prop where
  perSlot : List.Forall₂ List.Sublist s.perSlot d.perSlot
  required : s.required = d.required
  fulfilled : s.fulfilled ≤ d.fulfilled
  slotsSatisfied : s.slotsSatisfied ≤ d.slotsSatisfied
  isFulfilled : s.isFulfilled = true → d.isFulfilled = true

theorem AtMost.refl (s : Statistics Rat) : AtMost s s where
  perSlot := List.forall₂_same.mpr fun b _ => List.Sublist.refl b
  required := rfl
  fulfilled := le_refl _
  slotsSatisfied := Nat.le_refl _
  isFulfilled h := h

/-- the courses of a slot that another list extends, and that count for no more than it -/
def NoLess (group : SlotGroup) (bucket bucket' : List Course) : Prop :=
  bucket.Sublist bucket' ∧ (contribution group bucket : Rat) ≤ contribution group bucket'

section
variable {r : Resolved} {group : SlotGroup}

/-- the courses of a slot are those of the list that pass a test, so a relation kept by all tests
is kept slot by slot -/
theorem buckets_forall₂ {R : List Course → List Course → Prop} {cs ds : List Course}
    (h : ∀ p, R (cs.filter p) (ds.filter p)) :
    List.Forall₂ R (buckets r group cs) (buckets r group ds) := by
  unfold buckets
  rw [List.forall₂_map_left_iff, List.forall₂_map_right_iff]
  apply List.forall₂_same.mpr
  rintro ⟨slot, index⟩ _
  exact h (belongs r slot index)

variable {bucket bucket' : List Course}

theorem Grows.filter (h : Grows bucket bucket') (p : Course → Bool) :
    Grows (bucket.filter p) (bucket'.filter p) :=
  ⟨h.1.filter p, fun c hc => h.2 c (List.mem_filter.mp hc).1⟩

theorem creditSum_mono (h : Grows bucket bucket') :
    (creditSum bucket : Rat) ≤ creditSum bucket' := by
  unfold creditSum
  rw [Amount.sum_eq, Amount.sum_eq]
  apply List.Sublist.sum_le_sum (h.1.map _)
  intro a ha
  obtain ⟨c, hc, rfl⟩ := List.mem_map.mp ha
  exact h.2 c hc

theorem isEmpty_of_sublist (h : bucket.Sublist bucket') (he : bucket'.isEmpty = true) :
    bucket.isEmpty = true := by
  rw [List.isEmpty_iff] at he ⊢
  subst he
  exact List.sublist_nil.mp h

theorem contribution_mono (hg : group.CountsRows) (h : Grows bucket bucket') :
    (contribution group bucket : Rat) ≤ contribution group bucket' := by
  unfold contribution
  cases hc : group.counting with
  | courses =>
    cases group.progress with
    | anyCanCount => exact Amount.ofCourses_mono h.1.length_le
    | everyCourseNeeded =>
      apply Amount.ofCourses_mono
      cases he : bucket'.isEmpty with
      | true => rw [isEmpty_of_sublist h.1 he]
      | false => split <;> simp
  | credits =>
    cases hp : group.progress with
    | anyCanCount => exact creditSum_mono h
    | everyCourseNeeded =>
      unfold SlotGroup.CountsRows at hg
      rw [hc, hp] at hg
      rcases hg with hg | hg <;> cases hg

theorem satisfies_mono (slot : Slot) (h : NoLess group bucket bucket')
    (hs : satisfies (α := Rat) group slot bucket = true) :
    satisfies (α := Rat) group slot bucket' = true := by
  unfold satisfies at hs ⊢
  rw [Bool.and_eq_true, Bool.not_eq_true', Amount.reaches_iff] at hs ⊢
  refine ⟨?_, hs.2.trans h.2⟩
  cases he : bucket'.isEmpty with
  | true =>
    rw [isEmpty_of_sublist h.1 he] at hs
    exact hs.1
  | false => rfl

theorem countP_satisfies_mono (slots : List Slot) {bs bs' : List (List Course)}
    (h : List.Forall₂ (NoLess group) bs bs') :
    ((slots.zip bs).countP fun (slot, bucket) => satisfies (α := Rat) group slot bucket)
      ≤ (slots.zip bs').countP fun (slot, bucket) => satisfies (α := Rat) group slot bucket := by
  induction h generalizing slots with
  | nil => exact Nat.le_refl _
  | cons hb _ ih =>
    rename_i b b' bs bs' _
    cases slots with
    | nil => exact Nat.le_refl _
    | cons slot slots =>
      rw [List.zip_cons_cons, List.zip_cons_cons, List.countP_cons, List.countP_cons]
      have hrest := ih slots
      have hone : (if satisfies (α := Rat) group slot b then 1 else 0)
          ≤ if satisfies (α := Rat) group slot b' then 1 else 0 := by
        cases hs : satisfies (α := Rat) group slot b with
        | false => simp
        | true => rw [satisfies_mono slot hb hs]
      exact Nat.add_le_add hrest hone

theorem ofGroup_atMost_of_noLess {cs ds : List Course}
    (h : ∀ p, NoLess group (cs.filter p) (ds.filter p)) :
    AtMost (ofGroup r group cs) (ofGroup r group ds) := by
  have hb : List.Forall₂ (NoLess group) (buckets r group cs) (buckets r group ds) :=
    buckets_forall₂ h
  have hfulfilled : (ofGroup r group cs : Statistics Rat).fulfilled
      ≤ (ofGroup r group ds : Statistics Rat).fulfilled := by
    show List.foldl Amount.add _ _ ≤ List.foldl Amount.add _ _
    rw [Amount.foldl_add_eq, Amount.foldl_add_eq]
    apply add_le_add_right
    apply List.Forall₂.sum_le_sum
    rw [List.forall₂_map_left_iff, List.forall₂_map_right_iff]
    exact hb.imp fun _ _ hless => hless.2
  have hslots : (ofGroup r group cs : Statistics Rat).slotsSatisfied
      ≤ (ofGroup r group ds : Statistics Rat).slotsSatisfied :=
    countP_satisfies_mono group.slots hb
  refine ⟨hb.imp fun _ _ hless => hless.1, rfl, hfulfilled, hslots, fun hful => ?_⟩
  unfold ofGroup at hful hfulfilled hslots ⊢
  rw [Bool.and_eq_true, Amount.reaches_iff] at hful ⊢
  refine ⟨hful.1.trans hfulfilled, ?_⟩
  cases hmin : group.minSlots with
  | none => rfl
  | some m =>
    rw [hmin, Option.all_some, decide_eq_true_eq] at hful
    rw [Option.all_some, decide_eq_true_eq]
    exact hful.2.trans hslots

/-- **More courses, no less progress.** -/
theorem ofGroup_atMost (hg : group.CountsRows) {cs ds : List Course} (h : Grows cs ds) :
    AtMost (ofGroup r group cs) (ofGroup r group ds) :=
  ofGroup_atMost_of_noLess fun p => ⟨h.1.filter p, contribution_mono hg (h.filter p)⟩

end

end Statistics

end DegreeProgress
