import DegreeProgress.Proofs.Catalog.Compiled
import Mathlib.Data.List.Forall2

/-!
# Listed requirements

A requirement is compiled for the program that lists it.  All requirements of a catalog, in the
order in which they are compiled, are its `Declared.Catalog.listings`.

* `Catalog.compileRequirements_forall₂`   the requirements of one program,
* `Catalog.compilePrograms_forall₂`       of the programs of one kind,
* `Catalog.compile_forall₂`               and of a catalog, are compiled one by one.
-/

namespace DegreeProgress

theorem exists_of_forall₂ {α β : Type} {R : α → β → Prop} {as : List α} {bs : List β}
    (h : List.Forall₂ R as bs) {b : β} (hb : b ∈ bs) : ∃ a ∈ as, R a b := by
  induction h with
  | nil => exact absurd hb List.not_mem_nil
  | cons hab _ ih =>
    rcases List.mem_cons.mp hb with rfl | hb
    · exact ⟨_, List.mem_cons_self, hab⟩
    · obtain ⟨a, ha, hab'⟩ := ih hb
      exact ⟨a, List.mem_cons_of_mem _ ha, hab'⟩

open Catalog (requirementId universityCode)

namespace Declared

/-- a requirement and the program that lists it -/
structure Listing where
  kind : ProgramKind
  code : String
  requirement : Requirement

namespace Listing

def id (l : Listing) : RequirementId := requirementId l.kind l.code l.requirement.name

def CompilesTo (l : Listing) (r : DegreeProgress.Requirement) : Prop :=
  Catalog.compileRequirement l.kind l.code l.requirement = .ok r

theorem ids_of_forall₂ {ls : List Listing} {rs : List DegreeProgress.Requirement}
    (h : List.Forall₂ CompilesTo ls rs) : rs.map (·.id) = ls.map id := by
  induction h with
  | nil => rfl
  | cons hl _ ih => rw [List.map_cons, List.map_cons, ih, (Catalog.compileRequirement_eq hl).1, id]

end Listing

/-- the requirements of a program -/
def listingsOf (kind : ProgramKind) (code : String) (ds : List Requirement) : List Listing :=
  ds.map (⟨kind, code, ·⟩)

theorem listingsOf_cons (kind : ProgramKind) (code : String) (d : Requirement)
    (ds : List Requirement) :
    listingsOf kind code (d :: ds) = ⟨kind, code, d⟩ :: listingsOf kind code ds := rfl

/-- the requirements of several programs, by code -/
def programListings (kind : ProgramKind) (ds : List (String × Program)) : List Listing :=
  ds.flatMap fun e => listingsOf kind e.1 e.2.requirements

/-- all requirements, in the order in which they are compiled -/
def Catalog.listings (d : Catalog) : List Listing :=
  listingsOf .college universityCode d.university ++
    (programListings .college d.colleges.entries ++
      (programListings .major d.majors.entries ++
        (programListings .minor d.minors.entries ++ programListings .grad d.grad.entries)))

end Declared

namespace Catalog

open Declared (Listing listingsOf programListings)

variable {kind : ProgramKind} {code : String} {seen seen' : SortedSet RequirementId}

theorem compileRequirements_forall₂ {ds : List Declared.Requirement} {rs : List Requirement}
    (h : compileRequirements kind code seen ds = .ok (rs, seen')) :
    List.Forall₂ Listing.CompilesTo (listingsOf kind code ds) rs := by
  induction ds generalizing seen rs with
  | nil =>
    cases h
    exact .nil
  | cons d ds ih =>
    rw [compileRequirements] at h
    split at h
    · cases h
    · obtain ⟨r, hr, h⟩ := exists_of_bind_eq_ok h
      obtain ⟨⟨rs', seen₁⟩, hrs, h⟩ := exists_of_bind_eq_ok h
      cases h
      exact .cons hr (ih hrs)

theorem compilePrograms_forall₂ {ds : List (String × Declared.Program)}
    {programs : List (String × Program)}
    (h : compilePrograms kind seen ds = .ok (programs, seen')) :
    List.Forall₂ Listing.CompilesTo (programListings kind ds)
      (programs.flatMap fun e => e.2.requirements) := by
  induction ds generalizing seen programs with
  | nil =>
    cases h
    exact .nil
  | cons d ds ih =>
    obtain ⟨code, d⟩ := d
    rw [compilePrograms] at h
    obtain ⟨⟨rs, seen₁⟩, hrs, h⟩ := exists_of_bind_eq_ok h
    obtain ⟨⟨programs', seen₂⟩, hps, h⟩ := exists_of_bind_eq_ok h
    cases h
    exact List.rel_append (compileRequirements_forall₂ hrs) (ih hps)

theorem compile_forall₂ {d : Declared.Catalog} {c : Catalog} (h : compile d = .ok c) :
    List.Forall₂ Listing.CompilesTo d.listings c.requirements := by
  unfold compile at h
  obtain ⟨⟨university, seen₁⟩, huniversity, h⟩ := exists_of_bind_eq_ok h
  obtain ⟨⟨colleges, seen₂⟩, hcolleges, h⟩ := exists_of_bind_eq_ok h
  obtain ⟨⟨majors, seen₃⟩, hmajors, h⟩ := exists_of_bind_eq_ok h
  obtain ⟨⟨minors, seen₄⟩, hminors, h⟩ := exists_of_bind_eq_ok h
  obtain ⟨⟨grad, seen₅⟩, hgrad, h⟩ := exists_of_bind_eq_ok h
  cases h
  have hall := List.rel_append (compileRequirements_forall₂ huniversity)
    (List.rel_append (compilePrograms_forall₂ hcolleges)
      (List.rel_append (compilePrograms_forall₂ hmajors)
        (List.rel_append (compilePrograms_forall₂ hminors) (compilePrograms_forall₂ hgrad))))
  have hentries₂ := entries_ofList_programs (compilePrograms_adds hcolleges).2.1
  have hentries₃ := entries_ofList_programs (compilePrograms_adds hmajors).2.1
  have hentries₄ := entries_ofList_programs (compilePrograms_adds hminors).2.1
  have hentries₅ := entries_ofList_programs (compilePrograms_adds hgrad).2.1
  simpa only [Declared.Catalog.listings, requirements, kinds, Catalog.programs, SortedMap.values,
    hentries₂, hentries₃, hentries₄, hentries₅, List.flatMap_cons, List.flatMap_nil,
    List.append_nil, List.flatMap_map] using hall

end Catalog

end DegreeProgress
