import DegreeProgress.Rule.Shape
import Mathlib.Algebra.GroupWithZero.Nat
import Mathlib.Data.List.Basic

/-!
# Faults in pre-order

In pre-order every node of a rule comes before its members, and the members come from left to right.
`Rule.fault?` finds the first node, in this order, that something is wrong with.

* `Rule.check`, `Rule.preorder`   the search by recursion, and the nodes that it goes through;
* `Rule.LoopsTo`                  the search as a loop over a stack, with no bound on its turns;
* `Rule.scanFaults_eq`            waiting nodes are checked in their order, given a turn for each
                                  of them and of the nodes below,
* `Rule.loopsTo_iff`              and those on a stack from its top: every loop comes to an end;
* `Rule.first_in_preorder`        so all of these find the same fault.
-/

namespace DegreeProgress.Rule

variable {P : Type}

/-! ### one node -/

/-- a group has members, and `at_least` asks for at least one and at most all of them -/
def IsUseful : Rule P → Prop
  | leaf _ => True
  | all ms => ms ≠ []
  | any ms => ms ≠ []
  | not _ => True
  | atLeast min ms => 1 ≤ min.toNat ∧ min.toNat ≤ ms.length

/-- nothing is wrong with a node on level `depth`, its members aside -/
structure NodeFine (depth : Nat) (r : Rule P) : Prop where
  level : depth ≤ 32
  useful : r.IsUseful

/-- what is wrong with a node on level `depth`: first of all that it lies too deep -/
inductive NodeFault : Nat → Rule P → ShapeFault → Prop where
  | tooDeep {depth r} (h : 32 < depth) : NodeFault depth r (.tooDeep depth)
  | emptyAll {depth} (h : depth ≤ 32) : NodeFault depth (all []) (.emptyGroup .all)
  | emptyAny {depth} (h : depth ≤ 32) : NodeFault depth (any []) (.emptyGroup .any)
  | zeroMinimum {depth ms} (h : depth ≤ 32) : NodeFault depth (atLeast 0 ms) .zeroMinimum
  | minimumExceedsMembers {depth min ms} (h : depth ≤ 32) (hmin : min ≠ 0)
    (hms : ms.length < min.toNat) :
    NodeFault depth (atLeast min ms) (.minimumExceedsMembers min ms.length)

section
variable {depth : Nat} {r : Rule P} {fault : ShapeFault}

theorem nodeFault?_eq_none_iff : nodeFault? depth r = none ↔ NodeFine depth r := by
  have hfine : NodeFine depth r ↔ depth ≤ 32 ∧ r.IsUseful :=
    ⟨fun h => ⟨h.level, h.useful⟩, fun h => ⟨h.1, h.2⟩⟩
  rw [hfine]
  unfold nodeFault? maxDepth
  by_cases hdepth : 32 < depth
  · simp [hdepth, Nat.not_le.mpr hdepth]
  · rw [if_neg hdepth, and_iff_right (Nat.le_of_not_lt hdepth)]
    cases r with
    | leaf q | not r => simp [IsUseful]
    | all ms | any ms => cases ms <;> simp [IsUseful]
    | atLeast min ms =>
      have hmin : min = 0 ↔ min.toNat = 0 := by rw [← UInt8.toNat_inj, UInt8.toNat_zero]
      simp only [IsUseful, hmin]
      split
      · simp; omega
      · split <;> simp <;> omega

theorem nodeFault?_eq_some_iff : nodeFault? depth r = some fault ↔ NodeFault depth r fault := by
  constructor
  · intro h
    unfold nodeFault? maxDepth at h
    split at h
    · rename_i hdepth
      cases h
      exact .tooDeep hdepth
    · rename_i hdepth
      have hle := Nat.le_of_not_lt hdepth
      split at h
      · cases h
        exact .emptyAll hle
      · cases h
        exact .emptyAny hle
      · split at h
        · rename_i hmin
          cases h
          exact hmin ▸ .zeroMinimum hle
        · rename_i hmin
          split at h
          · rename_i hms
            cases h
            exact .minimumExceedsMembers hle hmin hms
          · cases h
      · cases h
  · intro h
    unfold nodeFault? maxDepth
    cases h with
    | tooDeep h => rw [if_pos h]
    | emptyAll h | emptyAny h => rw [if_neg (Nat.not_lt.mpr h)]
    | zeroMinimum h =>
      rw [if_neg (Nat.not_lt.mpr h)]
      rfl
    | minimumExceedsMembers h hmin hms =>
      rw [if_neg (Nat.not_lt.mpr h)]
      simp only [if_neg hmin, if_pos hms]

end

/-! ### the search by recursion -/

mutual

/-- the fault of a node on level `depth`, or else the first fault below it -/
def check (depth : Nat) : Rule P → Option ShapeFault
  | leaf q => nodeFault? depth (leaf q)
  | all ms => (nodeFault? depth (all ms)).or (checkMembers (depth + 1) ms)
  | any ms => (nodeFault? depth (any ms)).or (checkMembers (depth + 1) ms)
  | not r => (nodeFault? depth (not r)).or (r.check (depth + 1))
  | atLeast min ms => (nodeFault? depth (atLeast min ms)).or (checkMembers (depth + 1) ms)

def checkMembers (depth : Nat) : List (Rule P) → Option ShapeFault
  | [] => none
  | r :: rs => (r.check depth).or (checkMembers depth rs)

end

mutual

/-- a node on level `depth` and the nodes below it, each with its level -/
def preorder (depth : Nat) : Rule P → List (Nat × Rule P)
  | leaf q => [(depth, leaf q)]
  | all ms => (depth, all ms) :: preorderOf (depth + 1) ms
  | any ms => (depth, any ms) :: preorderOf (depth + 1) ms
  | not r => (depth, not r) :: r.preorder (depth + 1)
  | atLeast min ms => (depth, atLeast min ms) :: preorderOf (depth + 1) ms

def preorderOf (depth : Nat) : List (Rule P) → List (Nat × Rule P)
  | [] => []
  | r :: rs => r.preorder depth ++ preorderOf depth rs

end

theorem checkMembers_eq (depth : Nat) (ms : List (Rule P)) :
    checkMembers depth ms = ms.findSome? (check depth) := by
  induction ms with
  | nil => rfl
  | cons m ms ih =>
    rw [checkMembers, ih, List.findSome?_cons]
    cases m.check depth <;> rfl

theorem preorderOf_eq (depth : Nat) (ms : List (Rule P)) :
    preorderOf depth ms = ms.flatMap (preorder depth) := by
  induction ms with
  | nil => rfl
  | cons m ms ih => rw [preorderOf, ih, List.flatMap_cons]

theorem check_eq (depth : Nat) (r : Rule P) :
    r.check depth = (nodeFault? depth r).or (r.children.findSome? (check (depth + 1))) := by
  cases r with
  | leaf q => rw [check, children, List.findSome?_nil, Option.or_none]
  | not r => rw [check, children, List.findSome?_singleton]
  | all ms | any ms | atLeast min ms => rw [check, children, checkMembers_eq]

theorem preorder_eq (depth : Nat) (r : Rule P) :
    r.preorder depth = (depth, r) :: r.children.flatMap (preorder (depth + 1)) := by
  cases r with
  | leaf q => rfl
  | not r => rw [preorder, children, List.flatMap_singleton]
  | all ms | any ms | atLeast min ms => rw [preorder, children, preorderOf_eq]

/-- what holds of a node as soon as it holds of its members, whatever kind of node it is -/
theorem childInduction {motive : Rule P → Prop}
    (step : ∀ r : Rule P, (∀ m ∈ r.children, motive m) → motive r) (r : Rule P) : motive r := by
  induction r using memberInduction with
  | leaf q => exact step _ fun m hm => absurd hm List.not_mem_nil
  | not r ih => exact step _ fun m hm => List.mem_singleton.mp hm ▸ ih
  | all ms ih | any ms ih | atLeast min ms ih => exact step _ ih

theorem findSome?_flatMap_of {α β γ : Type} {f : α → List β} {g : β → Option γ} {k : α → Option γ}
    {xs : List α} (h : ∀ x ∈ xs, (f x).findSome? g = k x) :
    (xs.flatMap f).findSome? g = xs.findSome? k := by
  induction xs with
  | nil => rfl
  | cons x xs ih =>
    obtain ⟨hx, hxs⟩ := List.forall_mem_cons.mp h
    rw [List.flatMap_cons, List.findSome?_append, hx, ih hxs, List.findSome?_cons]
    cases k x <;> rfl

theorem check_eq_findSome? (r : Rule P) :
    ∀ depth, r.check depth = (r.preorder depth).findSome? fun e => nodeFault? e.1 e.2 := by
  induction r using childInduction with
  | step r ih =>
    intro depth
    have hmembers := findSome?_flatMap_of fun m hm => (ih m hm (depth + 1)).symm
    rw [check_eq, preorder_eq, List.findSome?_cons, hmembers]
    cases nodeFault? depth r <;> rfl

/-- the members of a node that does not lie too deep lie one level too deep at most -/
theorem eq_of_check_eq_tooDeep (r : Rule P) :
    ∀ {depth}, depth ≤ 33 → ∀ {level}, r.check depth = some (.tooDeep level) → level = 33 := by
  induction r using childInduction with
  | step r ih =>
    intro depth hdepth level h
    rw [check_eq, Option.or_eq_some_iff] at h
    rcases h with h | ⟨hnone, h⟩
    · cases nodeFault?_eq_some_iff.mp h with
      | tooDeep hlt => omega
    · have hfine := nodeFault?_eq_none_iff.mp hnone
      obtain ⟨m, hm, hmember⟩ := List.exists_of_findSome?_eq_some h
      exact ih m hm (Nat.succ_le_succ hfine.level) hmember

/-! ### the search through waiting nodes -/

/-- the first fault of several nodes and all below them -/
def checkWaiting (waiting : List (Nat × Rule P)) : Option ShapeFault :=
  waiting.findSome? fun e => e.2.check e.1

/-- how many nodes there are below several nodes, these included -/
def nodesBelow (waiting : List (Nat × Rule P)) : Nat := (waiting.map (·.2.nodes)).sum

theorem nodesOf_eq (ms : List (Rule P)) : nodesOf ms = (ms.map nodes).sum := by
  induction ms with
  | nil => rfl
  | cons m ms ih => rw [nodesOf, ih, List.map_cons, List.sum_cons]

theorem nodes_eq (r : Rule P) : r.nodes = (r.children.map nodes).sum + 1 := by
  cases r with
  | leaf q => rfl
  | not r => rw [nodes, children, List.map_singleton, List.sum_singleton]
  | all ms | any ms | atLeast min ms => rw [nodes, children, nodesOf_eq]

section
variable {depth : Nat} {r : Rule P} {waiting : List (Nat × Rule P)}

theorem nodesBelow_next :
    nodesBelow ((depth, r) :: waiting)
      = nodesBelow (r.children.map (depth + 1, ·) ++ waiting) + 1 := by
  have hmembers : (r.children.map (depth + 1, ·)).map (·.2.nodes) = r.children.map nodes := by
    rw [List.map_map]
    rfl
  unfold nodesBelow
  rw [List.map_cons, List.sum_cons, nodes_eq, List.map_append, List.sum_append, hmembers]
  show (r.children.map nodes).sum + 1 + _ = _
  omega

theorem checkWaiting_fault {fault : ShapeFault} (h : nodeFault? depth r = some fault) :
    checkWaiting ((depth, r) :: waiting) = some fault := by
  have hcheck : r.check depth = some fault := by rw [check_eq, h, Option.some_or]
  rw [checkWaiting, List.findSome?_cons, hcheck]

theorem checkWaiting_next (h : nodeFault? depth r = none) :
    checkWaiting ((depth, r) :: waiting)
      = checkWaiting (r.children.map (depth + 1, ·) ++ waiting) := by
  have hcheck : r.check depth = r.children.findSome? (check (depth + 1)) := by
    rw [check_eq, h, Option.none_or]
  unfold checkWaiting
  rw [List.findSome?_cons, hcheck, List.findSome?_append, List.findSome?_map]
  simp only [Function.comp_def]
  cases r.children.findSome? (check (depth + 1)) <;> rfl

theorem scanFaults_eq {fuel : Nat} (h : nodesBelow waiting < fuel) :
    scanFaults fuel waiting = checkWaiting waiting := by
  induction fuel generalizing waiting with
  | zero => exact absurd h (Nat.not_lt_zero _)
  | succ fuel ih =>
    match waiting with
    | [] => simp [scanFaults, checkWaiting]
    | (depth, r) :: waiting =>
      rw [scanFaults]
      cases hr : nodeFault? depth r with
      | some fault => exact (checkWaiting_fault hr).symm
      | none =>
        rw [nodesBelow_next] at h
        rw [checkWaiting_next hr]
        exact ih (Nat.lt_of_succ_lt_succ h)

theorem fault?_eq_check (r : Rule P) : r.fault? = r.check 0 := by
  have hnodes : nodesBelow [(0, r)] < r.nodes + 1 := Nat.lt_succ_self r.nodes
  rw [fault?, scanFaults_eq hnodes, checkWaiting, List.findSome?_singleton]

end

/-! ### the search over a stack -/

/-- a loop over a stack comes to an end with an outcome: the last node of the stack is looked at,
and its members are put there in reverse, so that the first of them is looked at next -/
inductive LoopsTo : List (Nat × Rule P) → Option ShapeFault → Prop where
  | done : LoopsTo [] none
  | fault {stack depth r fault} (h : nodeFault? depth r = some fault) :
    LoopsTo (stack ++ [(depth, r)]) (some fault)
  | next {stack depth r outcome} (h : nodeFault? depth r = none)
    (hnext : LoopsTo (stack ++ (r.children.map (depth + 1, ·)).reverse) outcome) :
    LoopsTo (stack ++ [(depth, r)]) outcome

section
variable {stack waiting : List (Nat × Rule P)} {outcome : Option ShapeFault}

theorem eq_of_loopsTo (h : LoopsTo stack outcome) : outcome = checkWaiting stack.reverse := by
  induction h with
  | done => rfl
  | fault h => rw [List.reverse_concat, checkWaiting_fault h]
  | next h _ ih =>
    rw [List.reverse_append, List.reverse_reverse] at ih
    rw [ih, List.reverse_concat, checkWaiting_next h]

/-- every turn leaves fewer nodes, so the loop comes to an end -/
theorem loopsTo_reverse (waiting : List (Nat × Rule P)) :
    LoopsTo waiting.reverse (checkWaiting waiting) := by
  induction hnodes : nodesBelow waiting using Nat.strongRecOn generalizing waiting with
  | ind n ih =>
    match waiting with
    | [] => exact .done
    | (depth, r) :: waiting =>
      rw [List.reverse_cons]
      cases hr : nodeFault? depth r with
      | some fault =>
        rw [checkWaiting_fault hr]
        exact .fault hr
      | none =>
        have hless : nodesBelow (r.children.map (depth + 1, ·) ++ waiting) < n := by
          rw [← hnodes, nodesBelow_next]
          exact Nat.lt_succ_self _
        have hnext := ih _ hless _ rfl
        rw [List.reverse_append] at hnext
        rw [checkWaiting_next hr]
        exact .next hr hnext

theorem loopsTo_iff : LoopsTo stack outcome ↔ outcome = checkWaiting stack.reverse := by
  constructor
  · exact eq_of_loopsTo
  · rintro rfl
    have h := loopsTo_reverse stack.reverse
    rwa [List.reverse_reverse] at h

end

/-- **The first fault in pre-order.**  The loop over a stack, which starts with the root on level 0,
comes to an end, and its outcome is what the recursive check finds: nothing iff no node is at fault,
and else the fault of the first node that is.  Whatever lies too deep is found on level 33. -/
theorem first_in_preorder (r : Rule P) :
    (∀ outcome, LoopsTo [(0, r)] outcome ↔ outcome = r.fault?) ∧
    r.fault? = r.check 0 ∧
    (r.fault? = none ↔ ∀ e ∈ r.preorder 0, NodeFine e.1 e.2) ∧
    (∀ fault, r.fault? = some fault ↔ ∃ before e after, r.preorder 0 = before ++ e :: after ∧
      (∀ e' ∈ before, NodeFine e'.1 e'.2) ∧ NodeFault e.1 e.2 fault) ∧
    ∀ level, r.fault? = some (.tooDeep level) → level = 33 := by
  have hsearch : r.fault? = (r.preorder 0).findSome? fun e => nodeFault? e.1 e.2 := by
    rw [fault?_eq_check, check_eq_findSome?]
  refine ⟨fun outcome => ?_, fault?_eq_check r, ?_, fun fault => ?_, fun level h => ?_⟩
  · rw [loopsTo_iff, List.reverse_singleton, checkWaiting, List.findSome?_singleton,
      fault?_eq_check]
  · rw [hsearch, List.findSome?_eq_none_iff]
    exact forall₂_congr fun e _ => nodeFault?_eq_none_iff
  · rw [hsearch, List.findSome?_eq_some_iff]
    simp only [nodeFault?_eq_some_iff, nodeFault?_eq_none_iff]
    exact exists₃_congr fun before e after => and_congr_right fun _ => and_comm
  · rw [fault?_eq_check] at h
    exact eq_of_check_eq_tooDeep r (Nat.zero_le 33) h

end DegreeProgress.Rule
