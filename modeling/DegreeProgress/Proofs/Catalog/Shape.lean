import DegreeProgress.Proofs.Catalog.WellFormed
import DegreeProgress.Proofs.Expression.Parsing
import DegreeProgress.Proofs.Rule.Tree

/-!
# The shape of compiled requirements

What the later stages rely on without looking: a compiled group of slots has slots, minimums that
courses can reach and checkers without a fault, and a requirement with options has one at least.

* `Checker.fault?_of_compile`            however a checker is declared;
* `Catalog.wellShaped_of_compileSlots`   the slots of one group;
* `Catalog.fulfillmentCompilesTo`        the groups of a requirement.
-/

namespace DegreeProgress

theorem Checker.fault?_of_compile {source : CheckerSource} {checker : Checker}
    (h : compile source = .ok checker) : checker.fault? = none := by
  have hany : ∀ {questions : List CourseQuestion}, anyOf questions = .ok checker →
      checker.fault? = none := by
    intro questions h
    cases questions with
    | nil => cases h
    | cons q qs =>
      cases h
      exact Rule.fault?_joined_any (List.cons_ne_nil q qs)
  cases source with
  | expression text =>
    rw [compile] at h
    cases hparse : Expression.parse CourseQuestion.resolve text with
    | error e =>
      rw [hparse] at h
      cases h
    | ok rule =>
      rw [hparse] at h
      cases h
      exact (Expression.spells_of_parse hparse).2.2
  | codes patterns =>
    obtain ⟨questions, _, h⟩ := exists_of_bind_eq_ok h
    exact hany h
  | courseIds ids => exact hany h

open Declared (MinimumFine rowsOf)

/-- the minimum is a finite number that is not negative, and the checker has no fault -/
structure Slot.WellShaped (s : Slot) : Prop where
  minimum : MinimumFine s.minCount
  checker : s.checker.fault? = none

structure SlotGroup.WellShaped (g : SlotGroup) : Prop where
  slots_ne_nil : g.slots ≠ []
  slots : ∀ slot ∈ g.slots, slot.WellShaped
  minSlots : ∀ min, g.minSlots = some min → 1 ≤ min ∧ min ≤ g.slots.length

namespace Catalog

variable {place : CatalogPlace} {counting : Counting} {d : Declared.Slots} {g : SlotGroup}

theorem exists_of_compileSlots (h : compileSlots place counting d = .ok g) :
    ∃ slots, compileSlotList place d.checkers d.minCounts d.names = .ok slots ∧
      g = ⟨counting, d.progress, slots, d.minSlots⟩ := by
  have hslots : (do
      let slots ← compileSlotList place d.checkers d.minCounts d.names
      return (⟨counting, d.progress, slots, d.minSlots⟩ : SlotGroup)) = .ok g := by
    unfold compileSlots at h
    dsimp only at h
    split at h
    · cases h
    split at h
    · cases h
    split at h
    · split at h
      · cases h
      · exact h
    · exact h
  obtain ⟨slots, hlist, hg⟩ := exists_of_bind_eq_ok hslots
  cases hg
  exact ⟨slots, hlist, rfl⟩

theorem wellShaped_of_compileSlot {source : CheckerSource} {minCount : Float} {name : String}
    {slot : Slot} (h : compileSlot place source minCount name = .ok slot) : slot.WellShaped := by
  unfold compileSlot at h
  split at h
  · cases h
  · rename_i hmin
    split at h
    · rename_i checker hchecker
      cases h
      exact ⟨(isFiniteNonneg_iff minCount).mp (by simpa using hmin),
        Checker.fault?_of_compile hchecker⟩
    · cases h

theorem wellShaped_of_compileSlotList {sources : List CheckerSource} {minCounts : List Float}
    {names : List String} {slots : List Slot}
    (h : compileSlotList place sources minCounts names = .ok slots) :
    slots.length = (rowsOf sources minCounts names).length ∧
      ∀ slot ∈ slots, slot.WellShaped := by
  induction sources, minCounts, names using compileSlotList.induct generalizing slots with
  | case1 source sources minCount minCounts name names ih =>
    rw [compileSlotList] at h
    obtain ⟨slot, hslot, h⟩ := exists_of_bind_eq_ok h
    obtain ⟨slots', hslots, h⟩ := exists_of_bind_eq_ok h
    cases h
    obtain ⟨hlength, hall⟩ := ih hslots
    refine ⟨?_, List.forall_mem_cons.mpr ⟨wellShaped_of_compileSlot hslot, hall⟩⟩
    rw [rowsOf, List.length_cons, List.length_cons, hlength]
  | case2 sources minCounts names hshort =>
    rw [compileSlotList] at h
    · cases h
      rw [rowsOf]
      · exact ⟨rfl, fun slot hslot => absurd hslot List.not_mem_nil⟩
      · exact hshort
    · exact hshort

theorem wellShaped_of_compileSlots (h : compileSlots place counting d = .ok g) : g.WellShaped := by
  have hd := (decides_compileSlots place counting d).ok_iff.mp ⟨g, h⟩
  obtain ⟨slots, hslots, rfl⟩ := exists_of_compileSlots h
  obtain ⟨hrows, hall⟩ := wellShaped_of_compileSlotList hslots
  have hcolumn := congrArg List.length (map_rows hd.sameLengths).1
  rw [List.length_map] at hcolumn
  have hlength : slots.length = d.checkers.length := hrows.trans hcolumn
  refine ⟨?_, hall, ?_⟩
  · rw [← List.length_pos_iff_ne_nil, hlength, List.length_pos_iff_ne_nil]
    exact hd.ne_nil
  · intro min hmin
    show _ ∧ min ≤ slots.length
    rw [hlength]
    exact hd.minSlots min hmin

/-! ### requirements -/

/-- the option `o` of a requirement is compiled to `c` -/
structure OptionCompilesTo (id : RequirementId) (o : Declared.Choice) (c : Choice) : Prop where
  name : c.name = o.name
  group : compileSlots ⟨id, some o.name⟩ o.counting o.slots = .ok c.group

theorem compileChoices_forall₂ {id : RequirementId} {seen : List String}
    {os : List Declared.Choice} {cs : List Choice} (h : compileChoices id seen os = .ok cs) :
    List.Forall₂ (OptionCompilesTo id) os cs := by
  induction os generalizing seen cs with
  | nil =>
    cases h
    exact .nil
  | cons o os ih =>
    rw [compileChoices] at h
    split at h
    · cases h
    · obtain ⟨group, hgroup, h⟩ := exists_of_bind_eq_ok h
      obtain ⟨cs', hcs, h⟩ := exists_of_bind_eq_ok h
      cases h
      exact .cons ⟨rfl, hgroup⟩ (ih hcs)

/-- what a requirement is compiled to, by how it is fulfilled -/
inductive FulfillmentCompilesTo (id : RequirementId) (d : Declared.Requirement) :
    Fulfillment → Prop where
  | selfCheck (hby : d.fulfilledBy = .selfCheck) : FulfillmentCompilesTo id d .selfCheck
  | fixed (hby : d.fulfilledBy = .courses ∨ d.fulfilledBy = .credits) {group} {counting}
    (h : compileSlots ⟨id, none⟩ counting d.slots = .ok group) :
    FulfillmentCompilesTo id d (.fixed group)
  | options (hby : d.fulfilledBy = .toggleable) {cs} (hne : d.choices ≠ [])
    (h : List.Forall₂ (OptionCompilesTo id) d.choices cs) : FulfillmentCompilesTo id d (.options cs)

theorem fulfillmentCompilesTo {id : RequirementId} {d : Declared.Requirement} {f : Fulfillment}
    (h : compileFulfillment id d = .ok f) : FulfillmentCompilesTo id d f := by
  unfold compileFulfillment at h
  split at h
  · rename_i hby
    cases h
    exact .selfCheck hby
  · rename_i hby
    obtain ⟨group, hgroup, rfl⟩ := exists_of_map_eq_ok h
    exact .fixed (.inl hby) hgroup
  · rename_i hby
    obtain ⟨group, hgroup, rfl⟩ := exists_of_map_eq_ok h
    exact .fixed (.inr hby) hgroup
  · rename_i hby
    split at h
    · cases h
    · rename_i hne
      obtain ⟨cs, hcs, rfl⟩ := exists_of_map_eq_ok h
      exact .options hby (fun hnil => hne (List.isEmpty_iff.mpr hnil)) (compileChoices_forall₂ hcs)

end Catalog

end DegreeProgress
