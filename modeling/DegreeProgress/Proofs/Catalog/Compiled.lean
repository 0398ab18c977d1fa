import DegreeProgress.Catalog.Compile
import DegreeProgress.Proofs.Outcome
import DegreeProgress.Proofs.Sorted.Views
import Mathlib.Data.List.Nodup

/-!
# Compiled catalogs

Compiling hands the set of all ids seen so far from one program to the next.  `Adds` says what a
part of the catalog does to that set: its ids are new, and none of them occurs twice.

* `Catalog.compileRequirements_adds`   the requirements of one program;
* `Catalog.compilePrograms_adds`       the programs of one kind;
* `Catalog.compiled_of_compile`        so no id of a compiled catalog occurs twice, and every
                                       requirement is marked with the program that lists it.
-/

namespace DegreeProgress

/-! ### ids that are new -/

/-- `seen'` is `seen` with some ids that are new to it, each once -/
structure Adds (seen : SortedSet RequirementId) (ids : List RequirementId)
    (seen' : SortedSet RequirementId) : Prop where
  nodup : ids.Nodup
  fresh : ∀ k ∈ ids, k ∉ seen
  mem : ∀ k, k ∈ seen' ↔ k ∈ seen ∨ k ∈ ids

namespace Adds

variable {seen seen₁ seen₂ : SortedSet RequirementId} {ids ids' : List RequirementId}

theorem nil : Adds seen [] seen where
  nodup := List.nodup_nil
  fresh _ hk := absurd hk List.not_mem_nil
  mem _ := (or_iff_left List.not_mem_nil).symm

theorem single {k : RequirementId} (h : k ∉ seen) : Adds seen [k] (seen.insert k) where
  nodup := List.nodup_singleton k
  fresh k' hk' := List.mem_singleton.mp hk' ▸ h
  mem k' := by rw [SortedSet.mem_insert, List.mem_singleton, or_comm]

theorem append (h : Adds seen ids seen₁) (h' : Adds seen₁ ids' seen₂) :
    Adds seen (ids ++ ids') seen₂ where
  nodup := by
    rw [List.nodup_append]
    refine ⟨h.nodup, h'.nodup, ?_⟩
    rintro k hk _ hk' rfl
    exact h'.fresh k hk' ((h.mem k).mpr (Or.inr hk))
  fresh k hk := by
    rcases List.mem_append.mp hk with hk | hk
    · exact h.fresh k hk
    · exact fun hseen => h'.fresh k hk ((h.mem k).mpr (Or.inl hseen))
  mem k := by rw [h'.mem, h.mem, List.mem_append, or_assoc]

end Adds

/-! ### compiling -/

/-- the requirement is marked with a program, also in its id -/
structure Requirement.IsOf (r : Requirement) (kind : ProgramKind) (code : String) : Prop where
  kind_eq : r.programKind = kind
  code_eq : r.programCode = code
  id_eq : r.id = Catalog.requirementId kind code r.name

namespace Catalog

variable {kind : ProgramKind} {code : String} {seen seen' : SortedSet RequirementId}

theorem compileRequirement_eq {d : Declared.Requirement} {r : Requirement}
    (h : compileRequirement kind code d = .ok r) :
    r.id = requirementId kind code d.name ∧ r.IsOf kind code := by
  unfold compileRequirement at h
  obtain ⟨fulfillment, _, hr⟩ := exists_of_bind_eq_ok h
  cases hr
  exact ⟨rfl, rfl, rfl, rfl⟩

theorem compileRequirements_adds {ds : List Declared.Requirement} {rs : List Requirement}
    (h : compileRequirements kind code seen ds = .ok (rs, seen')) :
    Adds seen (rs.map (·.id)) seen' ∧ ∀ r ∈ rs, r.IsOf kind code := by
  induction ds generalizing seen rs with
  | nil =>
    cases h
    exact ⟨.nil, fun r hr => absurd hr List.not_mem_nil⟩
  | cons d ds ih =>
    rw [compileRequirements] at h
    split at h
    · cases h
    · rename_i hnew
      obtain ⟨r, hr, h⟩ := exists_of_bind_eq_ok h
      obtain ⟨⟨rs', seen₁⟩, hrs, h⟩ := exists_of_bind_eq_ok h
      cases h
      obtain ⟨hid, hof⟩ := compileRequirement_eq hr
      obtain ⟨hadds, hofs⟩ := ih hrs
      constructor
      · rw [List.map_cons, hid]
        exact (Adds.single hnew).append hadds
      · exact List.forall_mem_cons.mpr ⟨hof, hofs⟩

theorem compilePrograms_adds {ds : List (String × Declared.Program)}
    {programs : List (String × Program)}
    (h : compilePrograms kind seen ds = .ok (programs, seen')) :
    Adds seen (programs.flatMap fun e => e.2.requirements.map (·.id)) seen' ∧
      programs.map (·.1) = ds.map (·.1) ∧
      ∀ e ∈ programs, ∀ r ∈ e.2.requirements, r.IsOf kind e.1 := by
  induction ds generalizing seen programs with
  | nil =>
    cases h
    exact ⟨.nil, rfl, fun e he => absurd he List.not_mem_nil⟩
  | cons d ds ih =>
    obtain ⟨code, d⟩ := d
    rw [compilePrograms] at h
    obtain ⟨⟨rs, seen₁⟩, hrs, h⟩ := exists_of_bind_eq_ok h
    obtain ⟨⟨programs', seen₂⟩, hps, h⟩ := exists_of_bind_eq_ok h
    cases h
    obtain ⟨hadds, hof⟩ := compileRequirements_adds hrs
    obtain ⟨hadds', hcodes, hofs⟩ := ih hps
    refine ⟨?_, ?_, List.forall_mem_cons.mpr ⟨hof, hofs⟩⟩
    · rw [List.flatMap_cons]
      exact hadds.append hadds'
    · rw [List.map_cons, List.map_cons, hcodes]

/-- what compiling guarantees -/
structure Compiled (c : Catalog) : Prop where
  university : ∀ r ∈ c.university, r.IsOf .college universityCode
  programs : ∀ kind, ∀ e ∈ (c.programs kind).entries, ∀ r ∈ e.2.requirements, r.IsOf kind e.1
  nodup_ids : (c.requirements.map (·.id)).Nodup

/-- programs under the codes of a map are entered in its order -/
theorem entries_ofList_programs {ds : SortedMap String Declared.Program}
    {programs : List (String × Program)} (h : programs.map (·.1) = ds.entries.map (·.1)) :
    (SortedMap.ofList programs).entries = programs := by
  apply SortedMap.entries_ofList
  have hsorted := List.pairwise_map.mpr ds.sorted
  rw [← h] at hsorted
  exact List.pairwise_map.mp hsorted

theorem compiled_of_compile {d : Declared.Catalog} {c : Catalog} (h : compile d = .ok c) :
    c.Compiled := by
  unfold compile at h
  obtain ⟨⟨university, seen₁⟩, huniversity, h⟩ := exists_of_bind_eq_ok h
  obtain ⟨⟨colleges, seen₂⟩, hcolleges, h⟩ := exists_of_bind_eq_ok h
  obtain ⟨⟨majors, seen₃⟩, hmajors, h⟩ := exists_of_bind_eq_ok h
  obtain ⟨⟨minors, seen₄⟩, hminors, h⟩ := exists_of_bind_eq_ok h
  obtain ⟨⟨grad, seen₅⟩, hgrad, h⟩ := exists_of_bind_eq_ok h
  cases h
  obtain ⟨hadds₁, hof₁⟩ := compileRequirements_adds huniversity
  obtain ⟨hadds₂, hcodes₂, hof₂⟩ := compilePrograms_adds hcolleges
  obtain ⟨hadds₃, hcodes₃, hof₃⟩ := compilePrograms_adds hmajors
  obtain ⟨hadds₄, hcodes₄, hof₄⟩ := compilePrograms_adds hminors
  obtain ⟨hadds₅, hcodes₅, hof₅⟩ := compilePrograms_adds hgrad
  have hentries₂ := entries_ofList_programs hcodes₂
  have hentries₃ := entries_ofList_programs hcodes₃
  have hentries₄ := entries_ofList_programs hcodes₄
  have hentries₅ := entries_ofList_programs hcodes₅
  refine ⟨hof₁, ?_, ?_⟩
  · intro kind
    cases kind with
    | college => exact hentries₂.symm ▸ hof₂
    | major => exact hentries₃.symm ▸ hof₃
    | minor => exact hentries₄.symm ▸ hof₄
    | grad => exact hentries₅.symm ▸ hof₅
  · have hall := (hadds₁.append (hadds₂.append (hadds₃.append (hadds₄.append hadds₅)))).nodup
    simpa only [requirements, kinds, Catalog.programs, SortedMap.values, hentries₂, hentries₃,
      hentries₄, hentries₅, List.flatMap_cons, List.flatMap_nil, List.append_nil, List.map_append,
      List.map_flatMap, List.flatMap_map] using hall

end Catalog

end DegreeProgress
