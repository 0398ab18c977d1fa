import DegreeProgress.Proofs.Outcome
import Mathlib.Data.List.Induction
import Mathlib.Data.List.Nodup

/-!
# First faults

A check `Decides` a condition when it succeeds exactly if the condition holds, and fails exactly
with the errors that belong to its failing.  Checks in a row decide the conditions in a row, and a
check of every item of a list decides whether all items are fine: it fails with the fault of the
first item that is not.

* `Decides.guard`, `Decides.bind`     a condition and what is checked after it;
* `allFine_cons`, `firstFault_cons`   an item and the items after it;
* `Decides.cons`, `Decides.append`    so lists are decided item by item and part by part;
* `allFine_distinct`                  items that are fine if their keys are new.
-/

namespace DegreeProgress

/-! ### checks -/

/-- the check succeeds exactly if `p` holds, and fails with `e` exactly if `q e` holds -/
structure Decides {ε α : Type} (x : Except ε α) (p : Prop) (q : ε → Prop) : Prop where
  ok_iff : (∃ a, x = .ok a) ↔ p
  error_iff : ∀ e, x = .error e ↔ q e

namespace Decides

variable {ε α β : Type} {x : Except ε α} {f : α → Except ε β} {p p' : Prop} {q q' : ε → Prop}

theorem congr (h : Decides x p q) (hp : p ↔ p') (hq : ∀ e, q e ↔ q' e) : Decides x p' q' where
  ok_iff := h.ok_iff.trans hp
  error_iff e := (h.error_iff e).trans (hq e)

theorem ok (a : α) : Decides (.ok a : Except ε α) True fun _ => False where
  ok_iff := iff_of_true ⟨a, rfl⟩ trivial
  error_iff _ := iff_of_false (fun h => by cases h) id

theorem error (e : ε) : Decides (.error e : Except ε α) False (· = e) where
  ok_iff := iff_of_false (fun ⟨_, h⟩ => by cases h) id
  error_iff e' := by rw [Except.error.injEq, eq_comm]

theorem bind (hx : Decides x p q) (hf : ∀ a, x = .ok a → Decides (f a) p' q') :
    Decides (x >>= f) (p ∧ p') fun e => q e ∨ p ∧ q' e := by
  cases x with
  | error e =>
    have hp : ¬p := fun h => by
      obtain ⟨a, ha⟩ := hx.ok_iff.mpr h
      cases ha
    refine (error e).congr (by simp [hp]) fun e' => ?_
    rw [← hx.error_iff e', or_iff_left fun h => hp h.1, Except.error.injEq, eq_comm]
  | ok a =>
    have hp : p := hx.ok_iff.mp ⟨a, rfl⟩
    have hq : ∀ e, ¬q e := fun e h => by cases (hx.error_iff e).mpr h
    rw [ok_bind]
    refine (hf a rfl).congr (by simp [hp]) fun e => ?_
    rw [or_iff_right (hq e), and_iff_right hp]

theorem map (h : Decides x p q) (g : α → β) : Decides (g <$> x) p q := by
  have hmap : Decides (x >>= fun a => .ok (g a)) (p ∧ True) fun e => q e ∨ p ∧ False :=
    h.bind fun a _ => .ok (g a)
  cases x with
  | error e => exact hmap.congr (by simp) (by simp)
  | ok a => exact hmap.congr (by simp) (by simp)

/-- `y` is what fails where the condition holds -/
theorem guard {c : Prop} [Decidable c] {y : Except ε α} {e : ε} (hy : y = .error e)
    (hx : ¬c → Decides x p q) :
    Decides (if c then y else x) (¬c ∧ p) fun e' => c ∧ e' = e ∨ ¬c ∧ q e' := by
  split
  · rename_i hc
    exact hy ▸ (error e).congr (by simp [hc]) (by simp [hc])
  · rename_i hc
    exact (hx hc).congr (by simp [hc]) (by simp [hc])

end Decides

/-! ### lists -/

section
variable {α ε : Type}

/-- every item is fine after `pre` and the items before it -/
def AllFine (Fine : List α → α → Prop) (pre xs : List α) : Prop :=
  ∀ before x after, xs = before ++ x :: after → Fine (pre ++ before) x

/-- `e` is the fault of an item, and the items before it are fine -/
def FirstFault (Fine : List α → α → Prop) (Fault : List α → α → ε → Prop) (pre xs : List α)
    (e : ε) : Prop :=
  ∃ before x after, xs = before ++ x :: after ∧ AllFine Fine pre before ∧ Fault (pre ++ before) x e

variable {Fine : List α → α → Prop} {Fault : List α → α → ε → Prop} {pre xs ys : List α} {x : α}
  {e : ε}

theorem allFine_nil : AllFine Fine pre [] :=
  fun before x after h => absurd h (by simp)

theorem allFine_cons :
    AllFine Fine pre (x :: xs) ↔ Fine pre x ∧ AllFine Fine (pre ++ [x]) xs := by
  constructor
  · intro h
    refine ⟨?_, fun before y after hxs => ?_⟩
    · have hx := h [] x xs rfl
      rwa [List.append_nil] at hx
    · have hy := h (x :: before) y after (by rw [hxs, List.cons_append])
      rwa [List.append_cons] at hy
  · rintro ⟨hx, hxs⟩ before y after h
    cases before with
    | nil =>
      cases h
      rwa [List.append_nil]
    | cons z before =>
      cases h
      rw [List.append_cons]
      exact hxs before y after rfl

theorem not_firstFault_nil : ¬FirstFault Fine Fault pre [] e := by
  rintro ⟨before, x, after, h, _⟩
  exact absurd h (by simp)

theorem firstFault_cons :
    FirstFault Fine Fault pre (x :: xs) e ↔
      Fault pre x e ∨ Fine pre x ∧ FirstFault Fine Fault (pre ++ [x]) xs e := by
  constructor
  · rintro ⟨before, y, after, h, hfine, hfault⟩
    cases before with
    | nil =>
      cases h
      rw [List.append_nil] at hfault
      exact .inl hfault
    | cons z before =>
      cases h
      obtain ⟨hz, hbefore⟩ := allFine_cons.mp hfine
      rw [List.append_cons] at hfault
      exact .inr ⟨hz, before, y, after, rfl, hbefore, hfault⟩
  · rintro (h | ⟨hx, before, y, after, rfl, hbefore, hfault⟩)
    · exact ⟨[], x, xs, rfl, allFine_nil, by rwa [List.append_nil]⟩
    · refine ⟨x :: before, y, after, rfl, allFine_cons.mpr ⟨hx, hbefore⟩, ?_⟩
      rwa [List.append_cons]

theorem allFine_append :
    AllFine Fine pre (xs ++ ys) ↔ AllFine Fine pre xs ∧ AllFine Fine (pre ++ xs) ys := by
  induction xs generalizing pre with
  | nil => simp [allFine_nil]
  | cons x xs ih =>
    rw [List.cons_append, allFine_cons, allFine_cons, ih, List.append_assoc, List.singleton_append,
      and_assoc]

theorem firstFault_append :
    FirstFault Fine Fault pre (xs ++ ys) e ↔
      FirstFault Fine Fault pre xs e ∨
        AllFine Fine pre xs ∧ FirstFault Fine Fault (pre ++ xs) ys e := by
  induction xs generalizing pre with
  | nil => simp [allFine_nil, not_firstFault_nil]
  | cons x xs ih =>
    rw [List.cons_append, firstFault_cons, firstFault_cons, allFine_cons, ih, List.append_assoc,
      List.singleton_append, and_or_left, or_assoc, and_assoc]

namespace Decides

variable {β γ : Type} {y : Except ε β} {f : β → Except ε γ}

theorem nil (b : β) :
    Decides (.ok b : Except ε β) (AllFine Fine pre []) (FirstFault Fine Fault pre []) :=
  (ok b).congr (iff_of_true trivial allFine_nil) fun _ => iff_of_false id not_firstFault_nil

theorem cons (hy : Decides y (Fine pre x) (Fault pre x))
    (hf : ∀ b, y = .ok b →
      Decides (f b) (AllFine Fine (pre ++ [x]) xs) (FirstFault Fine Fault (pre ++ [x]) xs)) :
    Decides (y >>= f) (AllFine Fine pre (x :: xs)) (FirstFault Fine Fault pre (x :: xs)) :=
  (hy.bind hf).congr allFine_cons.symm fun _ => firstFault_cons.symm

theorem append (hy : Decides y (AllFine Fine pre xs) (FirstFault Fine Fault pre xs))
    (hf : ∀ b, y = .ok b →
      Decides (f b) (AllFine Fine (pre ++ xs) ys) (FirstFault Fine Fault (pre ++ xs) ys)) :
    Decides (y >>= f) (AllFine Fine pre (xs ++ ys)) (FirstFault Fine Fault pre (xs ++ ys)) :=
  (hy.bind hf).congr allFine_append.symm fun _ => firstFault_append.symm

end Decides

theorem allFine_const {P : α → Prop} : AllFine (fun _ x => P x) pre xs ↔ ∀ x ∈ xs, P x := by
  constructor
  · intro h x hx
    obtain ⟨before, after, hxs⟩ := List.append_of_mem hx
    exact h before x after hxs
  · rintro h before x after rfl
    exact h x (by simp)

/-- items that are fine if no item before them has their key -/
theorem allFine_distinct {κ : Type} {key : α → κ} {P : α → Prop} :
    AllFine (fun before x => key x ∉ before.map key ∧ P x) [] xs ↔
      (xs.map key).Nodup ∧ ∀ x ∈ xs, P x := by
  induction xs using List.reverseRecOn with
  | nil => simp [allFine_nil]
  | append_singleton xs x ih =>
    have hmap : ((xs ++ [x]).map key).Nodup ↔ (xs.map key).Nodup ∧ key x ∉ xs.map key := by
      rw [List.map_append, List.map_singleton, List.nodup_append_comm, List.singleton_append,
        List.nodup_cons, and_comm]
    have hall : (∀ y ∈ xs ++ [x], P y) ↔ (∀ y ∈ xs, P y) ∧ P x := by
      rw [List.forall_mem_append, List.forall_mem_singleton]
    rw [allFine_append, ih, allFine_cons, and_iff_left allFine_nil, hmap, hall, List.nil_append,
      and_and_and_comm]

end

end DegreeProgress
