import DegreeProgress.Rule.Shape

/-!
# The tree of a rule

* `Rule.depth`                the level of the deepest node, where the root lies on level 0;
* `Rule.leaves`               the questions at the leaves, from left to right;
* `Rule.accepts_congr`        their answers settle what the rule answers;
* `Rule.scanFaults_eq_none`   no fault is found among nodes that are fine with all below them,
* `Rule.fault?_joined_any`    so none is found where any of several questions is asked.
-/

namespace DegreeProgress.Rule

variable {P : Type}

mutual

/-- the level of the deepest node, where the root lies on level 0 -/
def depth : Rule P → Nat
  | leaf _ => 0
  | all ms => depthBelow ms
  | any ms => depthBelow ms
  | not r => r.depth + 1
  | atLeast _ ms => depthBelow ms

/-- the level of the deepest node of the members of a node on level 0 -/
def depthBelow : List (Rule P) → Nat
  | [] => 0
  | r :: rs => max (r.depth + 1) (depthBelow rs)

end

mutual

/-- the questions at the leaves -/
def leaves : Rule P → List P
  | leaf q => [q]
  | all ms => leavesOf ms
  | any ms => leavesOf ms
  | not r => r.leaves
  | atLeast _ ms => leavesOf ms

def leavesOf : List (Rule P) → List P
  | [] => []
  | r :: rs => r.leaves ++ leavesOf rs

end

theorem depth_lt_depthBelow {r : Rule P} {ms : List (Rule P)} (h : r ∈ ms) :
    r.depth < depthBelow ms := by
  induction ms with
  | nil => cases h
  | cons m ms ih =>
    rw [depthBelow]
    rcases List.mem_cons.mp h with rfl | h
    · omega
    · have hlt := ih h
      omega

theorem mem_leavesOf {ms : List (Rule P)} {q : P} : q ∈ leavesOf ms ↔ ∃ r ∈ ms, q ∈ r.leaves := by
  induction ms with
  | nil => simp [leavesOf]
  | cons m ms ih => simp [leavesOf, ih]

/-! ### answers -/

theorem forall_mem_leavesOf {ms : List (Rule P)} {p : P → Prop} (h : ∀ q ∈ leavesOf ms, p q) :
    ∀ r ∈ ms, ∀ q ∈ r.leaves, p q :=
  fun r hr q hq => h q (mem_leavesOf.mpr ⟨r, hr, hq⟩)

theorem accepts_congr {ι : Type} [Question P ι] {x y : ι} (r : Rule P)
    (h : ∀ q ∈ r.leaves, Question.holds q x = Question.holds q y) : r.accepts x = r.accepts y := by
  induction r using memberInduction with
  | leaf q => exact h q (List.mem_singleton_self q)
  | all ms ih =>
    have hmembers := fun r hr => ih r hr (forall_mem_leavesOf h r hr)
    rw [accepts, accepts, allAccept_eq, allAccept_eq, Bool.eq_iff_iff, List.all_eq_true,
      List.all_eq_true]
    exact forall₂_congr fun r hr => by rw [hmembers r hr]
  | any ms ih =>
    have hmembers := fun r hr => ih r hr (forall_mem_leavesOf h r hr)
    rw [accepts, accepts, anyAccepts_eq, anyAccepts_eq, Bool.eq_iff_iff, List.any_eq_true,
      List.any_eq_true]
    exact exists_congr fun r => and_congr_right fun hr => by rw [hmembers r hr]
  | not r ih => rw [accepts, accepts, ih h]
  | atLeast min ms ih =>
    have hmembers := fun r hr => ih r hr (forall_mem_leavesOf h r hr)
    rw [accepts, accepts, countAccepting_eq, countAccepting_eq, List.countP_congr]
    exact fun r hr => by rw [hmembers r hr]

/-! ### rules without a fault -/

/-- what is fine on its level, with members that are fine on the next, has no fault -/
theorem scanFaults_eq_none (Fine : Nat → Rule P → Prop)
    (hnode : ∀ depth r, Fine depth r → nodeFault? depth r = none)
    (hmembers : ∀ depth r, Fine depth r → ∀ m ∈ r.children, Fine (depth + 1) m) (fuel : Nat)
    {waiting : List (Nat × Rule P)} (h : ∀ e ∈ waiting, Fine e.1 e.2) :
    scanFaults fuel waiting = none := by
  induction fuel generalizing waiting with
  | zero => rw [scanFaults]
  | succ fuel ih =>
    cases waiting with
    | nil => rw [scanFaults]; simp
    | cons e waiting =>
      obtain ⟨depth, r⟩ := e
      obtain ⟨hr, hwaiting⟩ := List.forall_mem_cons.mp h
      rw [scanFaults, hnode depth r hr]
      apply ih
      rw [List.forall_mem_append, List.forall_mem_map]
      exact ⟨hmembers depth r hr, hwaiting⟩

theorem fault?_leaf (q : P) : (leaf q).fault? = none := by
  unfold fault?
  rw [nodes, scanFaults]
  rfl

theorem fault?_any_leaves {qs : List P} (h : qs ≠ []) : (any (qs.map .leaf)).fault? = none := by
  refine scanFaults_eq_none (fun depth r => depth = 0 ∧ r = any (qs.map .leaf) ∨
    depth = 1 ∧ ∃ q, r = leaf q) ?_ ?_ _ (by simp)
  · rintro depth r (⟨rfl, rfl⟩ | ⟨rfl, q, rfl⟩)
    · obtain ⟨q, qs', rfl⟩ := List.exists_cons_of_ne_nil h
      rfl
    · rfl
  · rintro depth r (⟨rfl, rfl⟩ | ⟨rfl, q, rfl⟩) m hm
    · obtain ⟨q, _, rfl⟩ := List.mem_map.mp hm
      exact .inr ⟨rfl, q, rfl⟩
    · exact absurd hm List.not_mem_nil

theorem fault?_joined_any {qs : List P} (h : qs ≠ []) :
    (joined .any (qs.map .leaf)).fault? = none := by
  match qs with
  | [q] => exact fault?_leaf q
  | q :: q' :: qs => exact fault?_any_leaves h

end DegreeProgress.Rule
