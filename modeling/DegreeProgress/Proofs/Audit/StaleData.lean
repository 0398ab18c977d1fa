import DegreeProgress.Proofs.Audit.Overrides
import DegreeProgress.Proofs.Audit.Report

/-!
# Choices and overrides out of date

A student chooses options and moves courses by name, and a catalog may have lost what is named.

* `Requirement.resolve_congr`       of choices and overrides a requirement reads the option chosen
                                    for it and the overrides of its active slots;
* `Catalog.resolve_erase_choice`    a choice without an option is as good as none (`StaleChoice`);
* `OverridesEdit.resolve_eq`        so are overrides without an active slot (`OverridesEdit`).
-/

namespace DegreeProgress

/-! ### what a requirement reads -/

/-- a group of slots reads the overrides under the names of its slots -/
theorem SlotGroup.selections_congr (g : SlotGroup) (byName byName' : SortedMap String SlotOverride)
    (h : ∀ slot ∈ g.slots, byName'.get? slot.name = byName.get? slot.name) :
    g.selections byName' = g.selections byName := by
  unfold selections
  apply List.map_congr_left
  rintro ⟨slot, i⟩ he
  have hslot : slot ∈ g.slots := List.mem_of_getElem? (List.mem_zipIdx_iff_getElem?.mp he)
  simp only [h slot hslot]

namespace Requirement

theorem evaluate_of_stale {q : Requirement} {name : String} (h : q.choice? name = none) :
    q.evaluate (some name) = q.evaluate none := by
  have hactive : q.activeChoice? (some name) = q.activeChoice? none := by
    unfold activeChoice?
    rw [Option.bind_some, h]
    rfl
  unfold evaluate
  rw [hactive]

theorem resolve_congr (q : Requirement) {choices choices' : OptionChoices} {o o' : Overrides}
    (hchoice : q.evaluate (choices'.get? q.id) = q.evaluate (choices.get? q.id))
    (hunder : ∀ slot ∈ (q.resolve choices o).slots,
      o'.under q.id slot.name = o.under q.id slot.name) :
    q.resolve choices' o' = q.resolve choices o := by
  unfold resolve at hunder ⊢
  rw [hchoice]
  cases heval : q.evaluate (choices.get? q.id) with
  | mk evaluation chosenOption =>
    rw [heval] at hunder
    cases evaluation with
    | selfCheck => rfl
    | slots group =>
      have hselections := group.selections_congr ((o.get? q.id).getD {}) ((o'.get? q.id).getD {})
        fun slot hslot => by
          rw [Resolved.get?_getD_under, Resolved.get?_getD_under]
          exact hunder slot hslot
      simp only [hselections]

end Requirement

theorem Catalog.resolve_congr {c : Catalog} {p : Profile} {choices choices' : OptionChoices}
    {o o' : Overrides}
    (h : ∀ r ∈ c.resolve p choices o, r.requirement.resolve choices' o' = r) :
    c.resolve p choices' o' = c.resolve p choices o :=
  List.map_congr_left fun q hq => h (q.resolve choices o) (List.mem_map_of_mem hq)

/-! ### choices -/

/-- the choice for a requirement names no option -/
inductive StaleChoice (requirements : List Resolved) (choices : OptionChoices)
    (id : RequirementId) : Prop
  /-- the requirement does not apply, or does not exist -/
  | notResolved (h : ∀ r ∈ requirements, r.id ≠ id)
  /-- the requirement leaves no choice -/
  | noOptions (r : Resolved) (hr : r ∈ requirements) (hid : r.id = id)
      (h : r.requirement.choices = [])
  /-- the requirement has no option of the name -/
  | noSuchOption (r : Resolved) (hr : r ∈ requirements) (hid : r.id = id) (name : String)
      (hname : choices.get? id = some name) (h : r.requirement.choice? name = none)

theorem Resolved.eq_of_id_eq {requirements : List Resolved}
    (hids : (requirements.map (·.id)).Nodup) {r r' : Resolved} (hr : r ∈ requirements)
    (hr' : r' ∈ requirements) (h : r.id = r'.id) : r = r' :=
  List.inj_on_of_nodup_map hids hr hr' h

theorem StaleChoice.evaluate_eq {requirements : List Resolved} {choices : OptionChoices}
    {id : RequirementId} (h : StaleChoice requirements choices id)
    (hids : (requirements.map (·.id)).Nodup) {r : Resolved} (hr : r ∈ requirements)
    (hid : r.id = id) :
    r.requirement.evaluate none = r.requirement.evaluate (choices.get? id) := by
  cases h with
  | notResolved h => exact absurd hid (h r hr)
  | noOptions r' hr' hid' h =>
    obtain rfl := Resolved.eq_of_id_eq hids hr hr' (hid.trans hid'.symm)
    cases choices.get? id with
    | none => rfl
    | some name =>
      have hnone : r.requirement.choice? name = none := by
        unfold Requirement.choice?
        rw [h]
        rfl
      rw [Requirement.evaluate_of_stale hnone]
  | noSuchOption r' hr' hid' name hname h =>
    obtain rfl := Resolved.eq_of_id_eq hids hr hr' (hid.trans hid'.symm)
    rw [hname, Requirement.evaluate_of_stale h]

theorem Catalog.resolve_erase_choice {c : Catalog} {p : Profile} {choices : OptionChoices}
    {o : Overrides} {id : RequirementId} (h : StaleChoice (c.resolve p choices o) choices id) :
    c.resolve p (choices.erase id) o = c.resolve p choices o := by
  apply resolve_congr
  intro r hr
  have hstale := h.evaluate_eq (c.nodup_ids_resolve p choices o) hr
  obtain ⟨q, _, rfl⟩ := List.mem_map.mp hr
  refine q.resolve_congr ?_ fun _ _ => rfl
  rw [SortedMap.get?_erase]
  by_cases hid : q.id = id
  · rw [if_pos hid, hid]
    exact hstale hid
  · rw [if_neg hid]

/-! ### overrides -/

namespace Overrides

/-- the overrides without the one for a requirement under a slot name -/
def eraseUnder (o : Overrides) (id : RequirementId) (name : String) : Overrides :=
  o.mapValues fun id' byName => if id' = id then byName.erase name else byName

theorem under_erase (o : Overrides) (id id' : RequirementId) (name : String) :
    Overrides.under (o.erase id) id' name = if id' = id then none else o.under id' name := by
  unfold under
  rw [SortedMap.get?_erase]
  by_cases h : id' = id
  · rw [if_pos h, if_pos h, Option.bind_none]
  · rw [if_neg h, if_neg h]

theorem under_eraseUnder (o : Overrides) (id id' : RequirementId) (name name' : String) :
    (o.eraseUnder id name).under id' name'
      = if id' = id ∧ name' = name then none else o.under id' name' := by
  unfold under eraseUnder
  rw [SortedMap.get?_mapValues]
  cases o.get? id' with
  | none => exact (ite_self _).symm
  | some byName =>
    show (if id' = id then byName.erase name else byName).get? name'
      = if id' = id ∧ name' = name then none else byName.get? name'
    by_cases hid : id' = id
    · rw [if_pos hid, SortedMap.get?_erase]
      simp only [hid, true_and]
    · rw [if_neg hid, if_neg fun e => hid e.1]

end Overrides

/-- an edit of overrides that leaves those of all active slots alone -/
inductive OverridesEdit (requirements : List Resolved) (o : Overrides) : Overrides → Prop
  /-- those of a requirement that does not apply, or does not exist, are removed -/
  | notResolved (id : RequirementId) (h : ∀ r ∈ requirements, r.id ≠ id) :
      OverridesEdit requirements o (o.erase id)
  /-- those of a requirement that is confirmed by hand are removed -/
  | selfCheck (r : Resolved) (hr : r ∈ requirements) (h : r.evaluation = .selfCheck) :
      OverridesEdit requirements o (o.erase r.id)
  /-- the one under a name that no active slot has is removed -/
  | noSuchSlot (r : Resolved) (hr : r ∈ requirements) (name : String)
      (h : ∀ slot ∈ r.slots, slot.name ≠ name) :
      OverridesEdit requirements o (o.eraseUnder r.id name)
  /-- what is left of a requirement without any is removed -/
  | emptied (id : RequirementId) (h : o.get? id = some {}) :
      OverridesEdit requirements o (o.erase id)

theorem OverridesEdit.under_eq {requirements : List Resolved} {o o' : Overrides}
    (h : OverridesEdit requirements o o') (hids : (requirements.map (·.id)).Nodup) {r : Resolved}
    (hr : r ∈ requirements) (slot : Slot) (hslot : slot ∈ r.slots) :
    o'.under r.id slot.name = o.under r.id slot.name := by
  cases h with
  | notResolved id h => rw [Overrides.under_erase, if_neg (h r hr)]
  | selfCheck r' hr' h =>
    rw [Overrides.under_erase, if_neg]
    intro hid
    obtain rfl := Resolved.eq_of_id_eq hids hr hr' hid
    unfold Resolved.slots at hslot
    rw [h] at hslot
    exact absurd hslot List.not_mem_nil
  | noSuchSlot r' hr' name h =>
    rw [Overrides.under_eraseUnder, if_neg]
    rintro ⟨hid, hname⟩
    obtain rfl := Resolved.eq_of_id_eq hids hr hr' hid
    exact h slot hslot hname
  | emptied id h =>
    rw [Overrides.under_erase]
    by_cases hid : r.id = id
    · rw [if_pos hid]
      unfold Overrides.under
      rw [hid, h]
      rfl
    · rw [if_neg hid]

theorem OverridesEdit.resolve_eq {c : Catalog} {p : Profile} {choices : OptionChoices}
    {o o' : Overrides} (h : OverridesEdit (c.resolve p choices o) o o') :
    c.resolve p choices o' = c.resolve p choices o := by
  apply Catalog.resolve_congr
  intro r hr
  have hunder := h.under_eq (c.nodup_ids_resolve p choices o) hr
  obtain ⟨q, _, rfl⟩ := List.mem_map.mp hr
  exact q.resolve_congr rfl hunder

end DegreeProgress
