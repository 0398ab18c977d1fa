import DegreeProgress.Proofs.Audit.Bounds
import DegreeProgress.Catalog.Compile
import Mathlib.Algebra.BigOperators.Group.List.Lemmas
import Mathlib.Algebra.Order.BigOperators.Group.Finset

/-!
# Credits that count once

A slot that counts the credits of a catalog course once takes them from the first of its rows.
More courses may bring an earlier row, so they may bring fewer credits.

* `Statistics.firstRows_eq`        the rows that count are the first ones of every catalog course;
* `sum_firstPer_mono`              over a longer list they are worth no less, if no row is worth
                                   more than an earlier row of its key;
* `Audit.dangerous_lt_safe`        without that condition the safe end of a report can lie above
                                   the dangerous one;
* `Audit.atMost_of_firstsWorthMost`   with it the safe end is a lower bound in every entry.
-/

namespace DegreeProgress

open Finset

/-! ### the worth of first rows -/

section
variable {ι κ : Type} [DecidableEq κ] (key : ι → κ) (value : ι → Rat)

/-- the value of the first row of a key, and zero where there is none -/
def firstValue (rows : List ι) (k : κ) : Rat :=
  ((rows.find? fun x => key x = k).map value).getD 0

theorem firstValue_of_mem_firstPer {rows : List ι} {x : ι} (h : x ∈ firstPer key rows) :
    firstValue key value rows (key x) = value x := by
  unfold firstValue
  rw [find?_of_mem_firstPer key h, Option.map_some, Option.getD_some]

theorem sum_firstPer (rows : List ι) :
    ((firstPer key rows).map value).sum
      = ∑ k ∈ (rows.map key).toFinset, firstValue key value rows k := by
  have hkeys : (rows.map key).toFinset = ((firstPer key rows).map key).toFinset := by
    ext k
    rw [List.mem_toFinset, List.mem_toFinset, mem_map_firstPer]
  have hvalues : (firstPer key rows).map value
      = ((firstPer key rows).map key).map (firstValue key value rows) := by
    rw [List.map_map]
    exact List.map_congr_left fun x hx => (firstValue_of_mem_firstPer key value hx).symm
  rw [hkeys, List.sum_toFinset _ (nodup_map_firstPer key rows), hvalues]

variable {key value}

/-- the first row of a key is worth the most, if no row is worth more than an earlier one -/
theorem le_of_find?_eq_some {rows : List ι}
    (hfirst : rows.Pairwise fun x y => key x = key y → value y ≤ value x) {x y : ι}
    (hx : x ∈ rows) (hy : (rows.find? fun z => key z = key x) = some y) : value x ≤ value y := by
  induction rows with
  | nil => exact absurd hx List.not_mem_nil
  | cons z zs ih =>
    obtain ⟨hz, hzs⟩ := List.pairwise_cons.mp hfirst
    by_cases hzx : key z = key x
    · rw [List.find?_cons, decide_eq_true hzx, Option.some.injEq] at hy
      subst hy
      rcases List.mem_cons.mp hx with rfl | hx
      · exact le_refl _
      · exact hz x hx hzx
    · rw [List.find?_cons, decide_eq_false hzx] at hy
      rcases List.mem_cons.mp hx with rfl | hx
      · exact absurd rfl hzx
      · exact ih hzs hx hy

variable {rows rows' : List ι} (hsub : rows.Sublist rows') (hvalue : ∀ x ∈ rows', 0 ≤ value x)
  (hfirst : rows'.Pairwise fun x y => key x = key y → value y ≤ value x)
include hvalue

theorem firstValue_nonneg (k : κ) : 0 ≤ firstValue key value rows' k := by
  unfold firstValue
  cases hfind : rows'.find? fun x => key x = k with
  | none => exact le_refl _
  | some y => exact hvalue y (List.mem_of_find?_eq_some hfind)

include hsub hfirst

theorem firstValue_mono (k : κ) : firstValue key value rows k ≤ firstValue key value rows' k := by
  -- a first row of the shorter list is a row of the longer one, so worth no more than its first row
  cases hfind : rows.find? fun x => key x = k with
  | none =>
    have hzero : firstValue key value rows k = 0 := by
      unfold firstValue
      rw [hfind, Option.map_none, Option.getD_none]
    rw [hzero]
    exact firstValue_nonneg hvalue k
  | some x =>
    have hx : x ∈ rows' := hsub.subset (List.mem_of_find?_eq_some hfind)
    have hkey : key x = k := by simpa using List.find?_some hfind
    subst hkey
    unfold firstValue
    rw [hfind, Option.map_some, Option.getD_some]
    cases hfind' : rows'.find? fun z => key z = key x with
    | none => exact absurd (decide_eq_true rfl) (List.find?_eq_none.mp hfind' x hx)
    | some y => exact le_of_find?_eq_some hfirst hx hfind'

theorem sum_firstPer_mono :
    ((firstPer key rows).map value).sum ≤ ((firstPer key rows').map value).sum := by
  have hkeys : (rows.map key).toFinset ⊆ (rows'.map key).toFinset := by
    intro k hk
    rw [List.mem_toFinset] at hk ⊢
    exact (hsub.map key).subset hk
  rw [sum_firstPer, sum_firstPer]
  calc ∑ k ∈ (rows.map key).toFinset, firstValue key value rows k
      ≤ ∑ k ∈ (rows.map key).toFinset, firstValue key value rows' k :=
        sum_le_sum fun k _ => firstValue_mono hsub hvalue hfirst k
    _ ≤ ∑ k ∈ (rows'.map key).toFinset, firstValue key value rows' k :=
        sum_le_sum_of_subset_of_nonneg hkeys fun k _ _ => firstValue_nonneg hvalue k

end

/-! ### progress -/

/-- no row is worth more than an earlier row of its catalog course -/
def FirstsWorthMost (courses : List Course) : Prop :=
  courses.Pairwise fun c c' =>
    c.courseId = c'.courseId → exactValue c'.credits ≤ exactValue c.credits

instance (courses : List Course) : Decidable (FirstsWorthMost courses) :=
  inferInstanceAs (Decidable (courses.Pairwise _))

/-- the group counts the credits of a catalog course once -/
def SlotGroup.CountsOnce (g : SlotGroup) : Prop :=
  g.counting = .credits ∧ g.progress = .everyCourseNeeded

instance (g : SlotGroup) : Decidable g.CountsOnce := inferInstanceAs (Decidable (_ ∧ _))

def Evaluation.CountsOnce : Evaluation → Prop
  | selfCheck => False
  | slots group => group.CountsOnce

instance : (e : Evaluation) → Decidable e.CountsOnce
  | .selfCheck => inferInstanceAs (Decidable False)
  | .slots group => inferInstanceAs (Decidable group.CountsOnce)

theorem SlotGroup.countsOnce_or_countsRows (g : SlotGroup) : g.CountsOnce ∨ g.CountsRows := by
  unfold CountsOnce CountsRows
  cases g.counting with
  | courses => exact Or.inr (Or.inl rfl)
  | credits =>
    cases g.progress with
    | anyCanCount => exact Or.inr (Or.inr rfl)
    | everyCourseNeeded => exact Or.inl ⟨rfl, rfl⟩

namespace Statistics

theorem firstRows_eq (courses : List Course) :
    firstRows [] courses = firstPer Course.courseId courses := by
  have h := filter_firstPer_eq Course.courseId (fun (seen : List CourseId) k => k ∈ seen)
    (fun seen k => k :: seen) (fun _ _ _ => List.mem_cons) firstRows (fun _ => rfl)
    (fun seen c cs => by rw [firstRows]; simp only [List.contains_iff_mem]) [] courses
  rw [h, List.filter_eq_self]
  exact fun c _ => decide_eq_true List.not_mem_nil

variable {r : Resolved} {group : SlotGroup} {cs ds : List Course}

theorem creditSum_firstRows_mono (hfirst : FirstsWorthMost ds) (h : Grows cs ds) :
    (creditSum (firstRows [] cs) : Rat) ≤ creditSum (firstRows [] ds) := by
  unfold creditSum
  rw [Amount.sum_eq, Amount.sum_eq, firstRows_eq, firstRows_eq]
  exact sum_firstPer_mono h.1 h.2 hfirst

theorem contribution_mono_of_firstsWorthMost (hfirst : FirstsWorthMost ds) (h : Grows cs ds) :
    (contribution group cs : Rat) ≤ contribution group ds := by
  rcases group.countsOnce_or_countsRows with ⟨hc, hp⟩ | hrows
  · unfold contribution
    rw [hc, hp]
    exact creditSum_firstRows_mono hfirst h
  · exact contribution_mono hrows h

theorem of_atMost_of_firstsWorthMost (hfirst : FirstsWorthMost ds) (h : Grows cs ds) :
    AtMost (.of r cs) (.of r ds) := by
  unfold Statistics.of
  cases r.evaluation with
  | selfCheck => exact AtMost.refl _
  | slots group =>
    apply ofGroup_atMost_of_noLess
    intro p
    have hfilter : FirstsWorthMost (ds.filter p) := List.Pairwise.sublist List.filter_sublist hfirst
    exact ⟨h.1.filter p, contribution_mono_of_firstsWorthMost hfilter (h.filter p)⟩

end Statistics

/-! ### reports -/

namespace Sample

/-- a course under two codes: one requirement takes it under the first code only, and the other one
counts its credits once -/
def crossListed : Declared.Catalog where
  university := [
    { name := "Systems", description := "", source := "", fulfilledBy := .courses
      slots := { checkers := [.codes ["CS 4999"]], minCounts := [1.0], names := ["Systems"] }
      choices := [], doubleCounting := false },
    { name := "Research", description := "", source := "", fulfilledBy := .credits
      slots := { checkers := [.courseIds [⟨100⟩]], minCounts := [3.0], names := ["Research"]
                 progress := .everyCourseNeeded }
      choices := [], doubleCounting := false }]
  colleges := {}
  majors := {}
  minors := {}
  grad := {}

def systems : PlannedCourse := ⟨1, ⟨100⟩, "CS 4999", 1.0⟩
def research : PlannedCourse := ⟨2, ⟨100⟩, "INFO 4999", 3.0⟩

/-- a student with a plan of one semester -/
def researcher (plan : List PlannedCourse) : Student where
  semesters := [⟨2024, .fall, plan.map .course⟩]
  profile := ⟨some "EN", [], [], none, [], false⟩
  choices := {}
  overrides := {}

end Sample

namespace Audit

open Sample

/-- **Credits that count once break the bound.**  With one credit under the first code and then
three under the second, the student has three credits for sure and one at best: the row for which
the other requirement contends comes first, and it is worth less. -/
theorem dangerous_lt_safe : ∃ catalog, Catalog.compile crossListed = .ok catalog ∧
    (∀ c ∈ (researcher [systems, research]).courses default, 0 ≤ exactValue c.credits) ∧
    ∃ e ∈ (run Rat default catalog default (researcher [systems, research])).report.entries,
      (∃ r ∈ catalog.resolve (researcher [systems, research]).profile {} {},
        r.id = e.requirement.id ∧ r.evaluation.CountsOnce) ∧
      e.fulfillment.dangerous.fulfilled < e.fulfillment.safe.fulfilled ∧
      e.fulfillment.safe.isFulfilled = true ∧ e.fulfillment.dangerous.isFulfilled = false :=
  exists_ok_of_any (by decide +kernel)

/-- **The safe end is a lower bound** in every entry whose requirement could use no row that is
worth more than an earlier row of its catalog course. -/
theorem atMost_of_firstsWorthMost {options : AuditOptions} {catalog : Catalog} {table : ExamTable}
    {s : Student} (hcredits : ∀ c ∈ s.courses table, 0 ≤ exactValue c.credits)
    {e : ReportEntry Rat} (he : e ∈ (run Rat options catalog table s).report.entries)
    (hfirst : FirstsWorthMost
      ((run Rat options catalog table s).allocation.dangerous.coursesOf e.requirement.id)) :
    Statistics.AtMost e.fulfillment.safe e.fulfillment.dangerous := by
  have hids := catalog.nodup_ids_resolve s.profile s.choices s.overrides
  rcases mem_entries_run he with ⟨college, hc⟩ | ⟨r, hr, rfl⟩
  · rw [safe_eq_dangerous_of_mem_collegeEntries hc]
    exact Statistics.AtMost.refl _
  · apply Statistics.of_atMost_of_firstsWorthMost hfirst
    rw [allocation_run]
    refine ⟨Allocation.coursesOf_safe_sublist (s.courses table) hids r.id, fun c hc => ?_⟩
    exact hcredits c ((Allocation.coursesOf_dangerous_sublist (s.courses table) hids hr).subset hc)

/-- the same student with the two rows in the other order -/
theorem atMost_of_firstsWorthMost_researcher :
    ∃ catalog, Catalog.compile crossListed = .ok catalog ∧
      ∀ e ∈ (run Rat default catalog default (researcher [research, systems])).report.entries,
        Statistics.AtMost e.fulfillment.safe e.fulfillment.dangerous := by
  have hcredits : ∀ c ∈ (researcher [research, systems]).courses default,
      0 ≤ exactValue c.credits := by
    decide +kernel
  have hfirst : ∃ catalog, Catalog.compile crossListed = .ok catalog ∧
      ∀ e ∈ (run Rat default catalog default (researcher [research, systems])).report.entries,
        FirstsWorthMost ((run Rat default catalog default
          (researcher [research, systems])).allocation.dangerous.coursesOf e.requirement.id) :=
    exists_ok_of_any (by decide +kernel)
  obtain ⟨catalog, hcatalog, hfirst⟩ := hfirst
  exact ⟨catalog, hcatalog, fun e he => atMost_of_firstsWorthMost hcredits he (hfirst e he)⟩

end Audit

end DegreeProgress
