import DegreeProgress.Audit.Resolved
import DegreeProgress.Proofs.Sorted.Views
import Mathlib.Data.List.Basic

/-!
# Overrides by name

A student moves courses by hand under the names of slots; a resolved requirement has its overrides
slot by slot.  A name that several slots carry stands for the first of them.

* `Resolved.KeptOut`, `Resolved.PutIn`   what the student asks for a course under the names of the
                                         active slots, and `Resolved.PutInto` for which slot;
* `Resolved.isOptedOut_iff`              the resolved requirement keeps out what is kept out, and
* `Resolved.isOptedIn_iff`               takes in what is put in and not kept out,
* `Resolved.mem_optedInSlots_iff`        into the slots that are named.
-/

namespace DegreeProgress

/-- the override given for a requirement under a slot name -/
def Overrides.under (o : Overrides) (id : RequirementId) (name : String) : Option SlotOverride :=
  (o.get? id).bind (·.get? name)

namespace Resolved

/-- the course is kept out under the name of an active slot -/
def KeptOut (r : Resolved) (o : Overrides) (k : CourseId) : Prop :=
  ∃ slot ∈ r.slots, ∃ v ∈ o.under r.id slot.name, k ∈ v.optOut

/-- the course is put in under the name of an active slot -/
def PutIn (r : Resolved) (o : Overrides) (k : CourseId) : Prop :=
  ∃ slot ∈ r.slots, ∃ v ∈ o.under r.id slot.name, k ∈ v.optIn

/-- the slot at position `i` is the first one of a name under which the course is put in -/
def PutInto (r : Resolved) (o : Overrides) (i : Nat) (k : CourseId) : Prop :=
  ∃ slot, r.slots[i]? = some slot ∧ (∀ before ∈ r.slots.take i, before.name ≠ slot.name) ∧
    ∃ v ∈ o.under r.id slot.name, k ∈ v.optIn

end Resolved

/-! ### the overrides of a group of slots -/

/-- one side of an override, as it is given and as it is resolved -/
structure OverrideSide where
  given : SlotOverride → List CourseId
  resolved : SlotSelection → SortedSet CourseId
  resolved_ofOverride : ∀ v, resolved (.ofOverride v) = .ofList (given v)
  not_mem_default : ∀ k, k ∉ resolved default

namespace OverrideSide

def optIn : OverrideSide :=
  ⟨SlotOverride.optIn, SlotSelection.optIn, fun _ => rfl, SortedSet.not_mem_empty⟩

def optOut : OverrideSide :=
  ⟨SlotOverride.optOut, SlotSelection.optOut, fun _ => rfl, SortedSet.not_mem_empty⟩

end OverrideSide

namespace SlotGroup

variable (g : SlotGroup)

theorem slotIndex?_eq_some_iff (name : String) (i : Nat) :
    g.slotIndex? name = some i
      ↔ ∃ slot, g.slots[i]? = some slot ∧ slot.name = name ∧
          ∀ before ∈ g.slots.take i, before.name ≠ name := by
  unfold slotIndex?
  rw [List.findIdx?_eq_some_iff_getElem]
  constructor
  · rintro ⟨hi, hname, hbefore⟩
    refine ⟨g.slots[i], List.getElem?_eq_getElem hi, eq_of_beq hname, fun before hmem => ?_⟩
    obtain ⟨j, hj, rfl⟩ := List.getElem_of_mem hmem
    rw [List.length_take] at hj
    have hji : j < i := by omega
    have hne := hbefore j hji
    rw [List.getElem_take]
    simpa using hne
  · rintro ⟨slot, hslot, rfl, hbefore⟩
    obtain ⟨hi, rfl⟩ := List.getElem?_eq_some_iff.mp hslot
    refine ⟨hi, beq_self_eq_true _, fun j hji => ?_⟩
    have hmem : g.slots[j] ∈ g.slots.take i := List.mem_take_iff_getElem.mpr ⟨j, by omega, rfl⟩
    simpa using hbefore _ hmem

/-- every name of a slot stands for one -/
theorem exists_slotIndex? {slot : Slot} (h : slot ∈ g.slots) :
    ∃ i first, g.slotIndex? slot.name = some i ∧ g.slots[i]? = some first ∧
      first.name = slot.name := by
  cases hfind : g.slotIndex? slot.name with
  | none =>
    have hnone := List.findIdx?_eq_none_iff.mp hfind slot h
    rw [beq_self_eq_true] at hnone
    exact absurd hnone.symm Bool.false_ne_true
  | some i =>
    obtain ⟨first, hfirst, hname, _⟩ := (g.slotIndex?_eq_some_iff slot.name i).mp hfind
    exact ⟨i, first, rfl, hfirst, hname⟩

variable (byName : SortedMap String SlotOverride)

theorem getElem?_selections (i : Nat) :
    (g.selections byName)[i]? = g.slots[i]?.map fun slot =>
      if g.slotIndex? slot.name = some i then
        ((byName.get? slot.name).map SlotSelection.ofOverride).getD default
      else default := by
  unfold selections
  rw [List.getElem?_map, List.getElem?_zipIdx, Option.map_map, Nat.zero_add]
  rfl

variable (side : OverrideSide) (k : CourseId)

theorem mem_selection_iff (i : Nat) :
    (∃ selection, (g.selections byName)[i]? = some selection ∧ k ∈ side.resolved selection)
      ↔ ∃ slot, g.slots[i]? = some slot ∧ g.slotIndex? slot.name = some i ∧
          ∃ v ∈ byName.get? slot.name, k ∈ side.given v := by
  rw [getElem?_selections]
  cases hslot : g.slots[i]? with
  | none => simp
  | some slot =>
    simp only [Option.map_some, Option.some.injEq, exists_eq_left']
    by_cases hfirst : g.slotIndex? slot.name = some i
    · rw [if_pos hfirst]
      cases hgiven : byName.get? slot.name with
      | none =>
        rw [Option.map_none, Option.getD_none]
        simp [side.not_mem_default]
      | some v =>
        rw [Option.map_some, Option.getD_some, side.resolved_ofOverride, SortedSet.mem_ofList]
        simp [hfirst]
    · rw [if_neg hfirst]
      simp [hfirst, side.not_mem_default]

/-- a course is on one side of some override iff it is given under the name of some slot -/
theorem exists_mem_selections_iff :
    (∃ selection ∈ g.selections byName, k ∈ side.resolved selection)
      ↔ ∃ slot ∈ g.slots, ∃ v ∈ byName.get? slot.name, k ∈ side.given v := by
  constructor
  · rintro ⟨selection, hmem, hk⟩
    obtain ⟨i, hi⟩ := List.getElem?_of_mem hmem
    obtain ⟨slot, hslot, _, hgiven⟩ := (mem_selection_iff g byName side k i).mp ⟨selection, hi, hk⟩
    exact ⟨slot, List.mem_of_getElem? hslot, hgiven⟩
  · rintro ⟨slot, hmem, hgiven⟩
    -- the override is resolved at the first slot of the name, which need not be `slot`
    obtain ⟨i, first, hi, hfirst, hname⟩ := g.exists_slotIndex? hmem
    rw [← hname] at hi hgiven
    obtain ⟨selection, hget, hk⟩ :=
      (mem_selection_iff g byName side k i).mpr ⟨first, hfirst, hi, hgiven⟩
    exact ⟨selection, List.mem_of_getElem? hget, hk⟩

end SlotGroup

/-! ### the overrides of a resolved requirement -/

namespace Resolved

section
variable {catalog : Catalog} {p : Profile} {choices : OptionChoices} {o : Overrides} {r : Resolved}
  (hr : r ∈ catalog.resolve p choices o)
include hr

/-- the overrides of a resolved requirement are those of a group with its slots; one that is
confirmed by hand has no slots -/
theorem exists_group_of_mem_resolve : ∃ g : SlotGroup, g.slots = r.slots ∧
    r.overrides = g.selections ((o.get? r.id).getD {}) := by
  obtain ⟨q, _, rfl⟩ := List.mem_map.mp hr
  unfold Requirement.resolve
  cases q.evaluate (choices.get? q.id) with
  | mk evaluation chosenOption =>
    cases evaluation with
    | selfCheck => exact ⟨⟨.courses, .anyCanCount, [], none⟩, rfl, rfl⟩
    | slots group => exact ⟨group, rfl, rfl⟩

omit hr in
theorem get?_getD_under (name : String) (id : RequirementId) :
    ((o.get? id).getD {}).get? name = o.under id name := by
  unfold Overrides.under
  cases o.get? id with
  | none => rfl
  | some byName => rfl

variable (k : CourseId)

theorem isOptedOut_iff : r.isOptedOut k = true ↔ r.KeptOut o k := by
  obtain ⟨g, hslots, hoverrides⟩ := exists_group_of_mem_resolve hr
  have hside := g.exists_mem_selections_iff ((o.get? r.id).getD {}) .optOut k
  unfold isOptedOut KeptOut
  rw [List.any_eq_true, hoverrides, ← hslots]
  simp only [SortedSet.contains_iff, ← get?_getD_under]
  exact hside

theorem isOptedIn_iff : r.isOptedIn k = true ↔ ¬r.KeptOut o k ∧ r.PutIn o k := by
  obtain ⟨g, hslots, hoverrides⟩ := exists_group_of_mem_resolve hr
  have hside := g.exists_mem_selections_iff ((o.get? r.id).getD {}) .optIn k
  unfold isOptedIn PutIn
  rw [Bool.and_eq_true, Bool.not_eq_true', ← Bool.not_eq_true, isOptedOut_iff hr, List.any_eq_true,
    hoverrides, ← hslots]
  simp only [SortedSet.contains_iff, ← get?_getD_under]
  exact and_congr_right fun _ => hside

theorem mem_optedInSlots_iff (i : Nat) :
    i ∈ r.optedInSlots k ↔ ¬r.KeptOut o k ∧ r.PutInto o i k := by
  obtain ⟨g, hslots, hoverrides⟩ := exists_group_of_mem_resolve hr
  have hside := g.mem_selection_iff ((o.get? r.id).getD {}) .optIn k i
  unfold optedInSlots
  by_cases hout : r.KeptOut o k
  · rw [if_pos ((isOptedOut_iff hr k).mpr hout)]
    simp [hout]
  · rw [if_neg fun h => hout ((isOptedOut_iff hr k).mp h), and_iff_right hout]
    unfold PutInto
    rw [← hslots, hoverrides]
    refine (mem_positions_iff _ (fun v : SlotSelection => v.optIn.contains k) i).trans ?_
    simp only [SortedSet.contains_iff, ← get?_getD_under]
    refine hside.trans ?_
    constructor
    · rintro ⟨slot, hslot, hindex, hgiven⟩
      obtain ⟨_, _, _, hbefore⟩ := (g.slotIndex?_eq_some_iff slot.name i).mp hindex
      exact ⟨slot, hslot, hbefore, hgiven⟩
    · rintro ⟨slot, hslot, hbefore, hgiven⟩
      exact ⟨slot, hslot, (g.slotIndex?_eq_some_iff slot.name i).mpr ⟨slot, hslot, rfl, hbefore⟩,
        hgiven⟩

end

end Resolved

end DegreeProgress
