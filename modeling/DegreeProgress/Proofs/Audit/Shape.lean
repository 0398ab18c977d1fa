import DegreeProgress.Proofs.Audit.Groups
import DegreeProgress.Proofs.Audit.Overrides
import DegreeProgress.Proofs.Audit.Slots
import DegreeProgress.Proofs.Catalog.Shape

/-!
# The shape of resolved requirements

Whatever a student chooses and moves by hand, the requirements of a compiled catalog are resolved
to slots and overrides that fit together.

* `Declared.Requirement.InForce`     the option that a choice selects, whether or not it is stale;
* `Resolved.InShape`                 what a resolved requirement is like, by how it is declared;
* `Catalog.inShape_of_mem_resolve`   all resolved requirements of a compiled catalog are like this.
-/

namespace DegreeProgress

open Catalog (OptionCompilesTo compileSlots)
open Declared (Listing)

/-- the option that is named by the choice where there is one, and else the first -/
structure Declared.Requirement.InForce (d : Declared.Requirement) (choice : Option String)
    (o : Declared.Choice) : Prop where
  mem : o ∈ d.choices
  chosen : ∀ name, choice = some name → name ∈ d.choices.map (·.name) → o.name = name
  first : (∀ name, choice = some name → name ∉ d.choices.map (·.name)) → d.choices.head? = some o

/-- the shape of a requirement that is resolved from a listed one -/
structure Resolved.InShape (r : Resolved) (l : Listing) (choice : Option String) : Prop where
  compiled : l.CompilesTo r.requirement
  selfCheck_iff : r.evaluation = .selfCheck ↔ l.requirement.fulfilledBy = .selfCheck
  inForce : l.requirement.fulfilledBy = .toggleable → ∃ o group, l.requirement.InForce choice o ∧
    compileSlots ⟨l.id, some o.name⟩ o.counting o.slots = .ok group ∧
    r.evaluation = .slots group ∧ r.chosenOption = some o.name
  length_overrides : r.overrides.length = r.slots.length
  wellShaped : ∀ group, r.evaluation = .slots group → group.WellShaped

/-! ### the option in force -/

section
variable {id : RequirementId} {d : Declared.Requirement} {r : Requirement} {cs : List Choice}
  {choice : Option String}

theorem map_name_of_forall₂ {os : List Declared.Choice}
    (h : List.Forall₂ (OptionCompilesTo id) os cs) : cs.map (·.name) = os.map (·.name) := by
  induction h with
  | nil => rfl
  | cons hoc _ ih => rw [List.map_cons, List.map_cons, ih, hoc.name]

theorem activeChoice?_of_mem (h : List.Forall₂ (OptionCompilesTo id) d.choices cs)
    (hr : r.choices = cs) {name : String} (hname : name ∈ d.choices.map (·.name)) :
    ∃ c o, r.activeChoice? (some name) = some c ∧ o ∈ d.choices ∧ OptionCompilesTo id o c ∧
      o.name = name := by
  rw [← map_name_of_forall₂ h] at hname
  obtain ⟨c₀, hc₀, hname₀⟩ := List.mem_map.mp hname
  have hsome : (cs.find? (·.name == name)).isSome = true :=
    List.find?_isSome.mpr ⟨c₀, hc₀, by simpa using hname₀⟩
  obtain ⟨c, hfind⟩ := Option.isSome_iff_exists.mp hsome
  obtain ⟨o, ho, hoc⟩ := exists_of_forall₂ h (List.mem_of_find?_eq_some hfind)
  have hc : c.name = name := by simpa using List.find?_some hfind
  refine ⟨c, o, ?_, ho, hoc, hoc.name.symm.trans hc⟩
  unfold Requirement.activeChoice? Requirement.choice?
  rw [hr, Option.bind_some, hfind, Option.some_or]

theorem activeChoice?_of_stale (h : List.Forall₂ (OptionCompilesTo id) d.choices cs)
    (hr : r.choices = cs) (hstale : ∀ name, choice = some name → name ∉ d.choices.map (·.name)) :
    r.activeChoice? choice = cs.head? := by
  unfold Requirement.activeChoice?
  have hnone : choice.bind r.choice? = none := by
    cases choice with
    | none => rfl
    | some name =>
      have hmem := hstale name rfl
      rw [← map_name_of_forall₂ h] at hmem
      rw [Option.bind_some, Requirement.choice?, hr, List.find?_eq_none]
      intro c hc heq
      exact hmem (List.mem_map.mpr ⟨c, hc, by simpa using heq⟩)
  rw [hnone, Option.none_or, hr]

theorem exists_inForce (h : List.Forall₂ (OptionCompilesTo id) d.choices cs)
    (hr : r.choices = cs) (hne : d.choices ≠ []) (choice : Option String) :
    ∃ c o, r.activeChoice? choice = some c ∧ OptionCompilesTo id o c ∧ d.InForce choice o := by
  by_cases hchosen : ∃ name, choice = some name ∧ name ∈ d.choices.map (·.name)
  · obtain ⟨name, rfl, hname⟩ := hchosen
    obtain ⟨c, o, hc, ho, hoc, honame⟩ := activeChoice?_of_mem h hr hname
    refine ⟨c, o, hc, hoc, ho, ?_, fun hstale => absurd hname (hstale name rfl)⟩
    rintro _ ⟨⟩ _
    exact honame
  · have hstale : ∀ name, choice = some name → name ∉ d.choices.map (·.name) :=
      fun name hname hmem => hchosen ⟨name, hname, hmem⟩
    obtain ⟨o, os, hos⟩ := List.exists_cons_of_ne_nil hne
    have hactive := activeChoice?_of_stale h hr hstale
    rw [hos] at h
    obtain ⟨c, cs', hoc, _, rfl⟩ := List.forall₂_cons_left_iff.mp h
    refine ⟨c, o, hactive, hoc, ?_, fun name hname hmem => absurd hmem (hstale name hname), ?_⟩
    · rw [hos]
      exact List.mem_cons_self
    · intro _
      rw [hos]
      rfl

end

/-! ### resolved requirements -/

theorem SlotGroup.length_selections (g : SlotGroup) (byName : SortedMap String SlotOverride) :
    (g.selections byName).length = g.slots.length := by
  unfold selections
  rw [List.length_map, List.length_zipIdx]

theorem fulfillment_of_compilesTo {l : Listing} {r : Requirement} (h : l.CompilesTo r) :
    Catalog.FulfillmentCompilesTo l.id l.requirement r.fulfillment := by
  unfold Listing.CompilesTo Catalog.compileRequirement at h
  obtain ⟨f, hf, hr⟩ := exists_of_bind_eq_ok h
  cases hr
  exact Catalog.fulfillmentCompilesTo hf

/-- how a requirement is evaluated, by how it is declared -/
inductive EvaluatesTo (l : Listing) (choice : Option String) :
    Evaluation × Option String → Prop where
  | selfCheck (hby : l.requirement.fulfilledBy = .selfCheck) :
    EvaluatesTo l choice (.selfCheck, none)
  | fixed (hby : l.requirement.fulfilledBy = .courses ∨ l.requirement.fulfilledBy = .credits)
    {group} (h : group.WellShaped) : EvaluatesTo l choice (.slots group, none)
  | option (hby : l.requirement.fulfilledBy = .toggleable) {o group}
    (ho : l.requirement.InForce choice o)
    (h : compileSlots ⟨l.id, some o.name⟩ o.counting o.slots = .ok group) :
    EvaluatesTo l choice (.slots group, some o.name)

theorem Requirement.evaluatesTo {l : Listing} {r : Requirement} (h : l.CompilesTo r)
    (choice : Option String) : EvaluatesTo l choice (r.evaluate choice) := by
  have hf := fulfillment_of_compilesTo h
  unfold evaluate
  cases hful : r.fulfillment with
  | selfCheck =>
    rw [hful] at hf
    obtain ⟨hby⟩ := hf
    exact .selfCheck hby
  | fixed group =>
    rw [hful] at hf
    obtain _ | ⟨hby, hgroup⟩ := hf
    exact .fixed hby (Catalog.wellShaped_of_compileSlots hgroup)
  | options cs =>
    rw [hful] at hf
    obtain _ | _ | ⟨hby, hne, hcs⟩ := hf
    have hr : r.choices = cs := by
      unfold choices
      rw [hful]
    obtain ⟨c, o, hc, hoc, hforce⟩ := exists_inForce hcs hr hne choice
    rw [hc]
    show EvaluatesTo l choice (.slots c.group, some c.name)
    rw [hoc.name]
    exact .option hby hforce hoc.group

theorem Requirement.inShape_resolve {l : Listing} {r : Requirement} (h : l.CompilesTo r)
    (choices : OptionChoices) (overrides : Overrides) :
    (r.resolve choices overrides).InShape l (choices.get? r.id) := by
  have heval := r.evaluatesTo h (choices.get? r.id)
  unfold resolve
  cases hpair : r.evaluate (choices.get? r.id) with
  | mk evaluation chosenOption =>
    rw [hpair] at heval
    cases heval with
    | selfCheck hby =>
      refine ⟨h, iff_of_true rfl hby, ?_, rfl, nofun⟩
      rw [hby]
      exact nofun
    | fixed hby hgroup =>
      refine ⟨h, iff_of_false nofun ?_, ?_, SlotGroup.length_selections _ _, ?_⟩
      · rintro hself
        rw [hself] at hby
        exact hby.elim nofun nofun
      · rintro htoggleable
        rw [htoggleable] at hby
        exact hby.elim nofun nofun
      · rintro _ ⟨⟩
        exact hgroup
    | option hby ho hgroup =>
      refine ⟨h, iff_of_false nofun ?_, ?_, SlotGroup.length_selections _ _, ?_⟩
      · rw [hby]
        exact nofun
      · exact fun _ => ⟨_, _, ho, hgroup, rfl, rfl⟩
      · rintro _ ⟨⟩
        exact Catalog.wellShaped_of_compileSlots hgroup

namespace Catalog

variable {c : Catalog} {p : Profile} {choices : OptionChoices} {overrides : Overrides}

theorem mem_requirements_of_mem_applicable {r : Requirement} (h : r ∈ c.applicable p) :
    r ∈ c.requirements := by
  rw [applicable_eq_programKeys] at h
  obtain ⟨key, _, hr⟩ := List.mem_flatMap.mp h
  exact (c.requirementsIn_sublist key).subset hr

theorem exists_of_mem_resolve {r : Resolved} (h : r ∈ c.resolve p choices overrides) :
    ∃ q ∈ c.requirements, q.resolve choices overrides = r := by
  obtain ⟨q, hq, rfl⟩ := List.mem_map.mp h
  rw [distinctById_eq] at hq
  exact ⟨q, mem_requirements_of_mem_applicable ((firstPer_sublist _ _).subset hq), rfl⟩

end Catalog

theorem Statistics.slotsSatisfied_le_length {α : Type} [Amount α] (r : Resolved)
    (courses : List Course) :
    (Statistics.of r courses : Statistics α).slotsSatisfied ≤ r.slots.length := by
  unfold Statistics.of Resolved.slots
  cases r.evaluation with
  | selfCheck => exact Nat.le_refl 0
  | slots group =>
    refine (List.countP_le_length ..).trans ?_
    rw [List.length_zip]
    exact Nat.min_le_left _ _

/-- **Compiled catalogs keep their shape.**  Whatever a student takes, chooses and moves by hand,
the resolved requirements have different ids, and each is in the shape that its declaration asks
for.  Its statistics have the courses of every active slot, and satisfy no more slots than that. -/
theorem Catalog.inShape_of_mem_resolve {d : Declared.Catalog} {c : Catalog}
    (h : compile d = .ok c) (p : Profile) (choices : OptionChoices) (overrides : Overrides) :
    ((c.resolve p choices overrides).map (·.id)).Nodup ∧
      ∀ r ∈ c.resolve p choices overrides,
        (∃ l ∈ d.listings, r.InShape l (choices.get? r.id)) ∧
        ∀ (α : Type) [Amount α] (courses : List Course),
          (Statistics.of r courses : Statistics α).perSlot.length = r.slots.length ∧
          (Statistics.of r courses : Statistics α).slotsSatisfied ≤ r.slots.length := by
  refine ⟨c.nodup_ids_resolve p choices overrides, fun r hr => ⟨?_, fun α _ courses => ?_⟩⟩
  · obtain ⟨q, hq, rfl⟩ := exists_of_mem_resolve hr
    obtain ⟨l, hl, hlq⟩ := exists_of_forall₂ (compile_forall₂ h) hq
    exact ⟨l, hl, q.inShape_resolve hlq choices overrides⟩
  · exact ⟨Statistics.length_perSlot_of r courses, Statistics.slotsSatisfied_le_length r courses⟩

namespace Sample

def emphasis (name code : String) : Declared.Choice where
  name
  description := ""
  counting := .courses
  slots := { checkers := [.expression code], minCounts := [1.0], names := [name] }

/-- a major with one of two emphases -/
def declaredEmphases : Declared.Catalog where
  university := []
  colleges := {}
  majors := .ofList [("CS", ⟨"Computer Science", [], [
    { declared "Emphasis" "CS 2110" with
      fulfilledBy := .toggleable
      choices := [emphasis "Theory" "code(\"CS 4820\")",
        emphasis "Systems" "code(\"CS 44**\")"] }]⟩)]
  minors := {}
  grad := {}

def computing : Profile := ⟨none, ["CS"], [], none, [], false⟩

/-- the choice of an emphasis that the catalog has no longer -/
def staleChoice : OptionChoices := .ofList [(⟨"Major-CS-Emphasis"⟩, "Graphics")]

end Sample

open Sample in
/-- a stale choice leaves the first emphasis in force -/
theorem Catalog.inShape_of_mem_resolve_emphases : ∃ catalog,
    compile declaredEmphases = .ok catalog ∧
    (catalog.resolve computing staleChoice {}).map (·.chosenOption) = [some "Theory"] ∧
    ∀ r ∈ catalog.resolve computing staleChoice {},
      ∃ l ∈ declaredEmphases.listings, r.InShape l (staleChoice.get? r.id) := by
  have htheory : ∃ catalog, compile declaredEmphases = .ok catalog ∧
      (catalog.resolve computing staleChoice {}).map (·.chosenOption) = [some "Theory"] :=
    exists_ok_of_any (by decide +kernel)
  obtain ⟨catalog, hcatalog, htheory⟩ := htheory
  obtain ⟨_, hshape⟩ := inShape_of_mem_resolve hcatalog computing staleChoice {}
  exact ⟨catalog, hcatalog, htheory, fun r hr => (hshape r hr).1⟩

end DegreeProgress
