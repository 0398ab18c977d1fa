import DegreeProgress.Proofs.Audit.Groups

/-!
# The ids of entries

The ids of a catalog's requirements are told apart when it is compiled.  The ids of the college's
own entries are made up later, and nothing keeps a catalog from using them.

* `Audit.entries_run`            the entries of a report: the college's own, and then one for each
                                 resolved requirement;
* `Audit.not_nodup_entryIds`     a catalog may list a requirement under the id of the swim test,
                                 whose entry is then found in place of the requirement's;
* `Audit.nodup_entryIds_iff`     ids can clash in no other way, and without a clash every entry is
                                 found by its id.
-/

namespace DegreeProgress

/-! ### made-up ids -/

namespace CreditPolicy

theorem getLast?_requirementId (college : String) :
    (requirementId college).text.toList.getLast? = some 's' := by
  have htext : (requirementId college).text.toList
      = "College-".toList ++ college.toList ++ "-total-credits".toList := by
    unfold requirementId
    rw [String.toList_append, String.toList_append]
    rfl
  have hend : "-total-credits".toList.getLast? = some 's' := by decide
  rw [htext, List.getLast?_append, hend, Option.some_or]

theorem head?_requirementId (college : String) :
    (requirementId college).text.toList.head? = some 'C' := by
  unfold requirementId
  rw [String.toList_append, String.toList_append, List.append_assoc, List.head?_append]
  rfl

theorem requirementId_ne_swimTest (college : String) :
    requirementId college ≠ SwimTest.requirementId := by
  intro h
  -- the one ends in an s, the other in a t
  have hend : SwimTest.requirementId.text.toList.getLast? = some 't' := by decide
  rw [← h, getLast?_requirementId] at hend
  exact absurd hend (by decide)

end CreditPolicy

theorem Catalog.head?_requirementId (kind : ProgramKind) (code name : String) :
    (requirementId kind code name).text.toList.head? = kind.name.toList.head? := by
  unfold requirementId
  rw [String.toList_append, String.toList_append, String.toList_append, String.toList_append,
    List.append_assoc, List.append_assoc, List.append_assoc, List.head?_append]
  cases kind <;> rfl

namespace Audit

variable {options : AuditOptions}

theorem nodup_collegeIds (options : AuditOptions) (college : String) :
    (collegeIds options college).Nodup := by
  unfold collegeIds
  split <;> split
  · rw [List.nodup_append]
    refine ⟨List.nodup_singleton _, List.nodup_singleton _, ?_⟩
    intro a ha b hb
    rw [List.mem_singleton.mp ha, List.mem_singleton.mp hb]
    exact CreditPolicy.requirementId_ne_swimTest college
  · exact List.nodup_singleton _
  · exact List.nodup_singleton _
  · exact List.nodup_nil

theorem head?_of_mem_collegeIds {college : String} {id : RequirementId}
    (h : id ∈ collegeIds options college) : id.text.toList.head? = some 'C' := by
  rcases List.mem_append.mp h with h | h
  · split at h
    · rw [List.mem_singleton.mp h]
      exact CreditPolicy.head?_requirementId college
    · exact absurd h List.not_mem_nil
  · split at h
    · rw [List.mem_singleton.mp h]
      decide
    · exact absurd h List.not_mem_nil

theorem not_mem_collegeIds {college : String} {r : Requirement} {kind : ProgramKind}
    {code : String} (hof : r.IsOf kind code) (hkind : kind ≠ .college) :
    r.id ∉ collegeIds options college := by
  intro h
  have hhead := head?_of_mem_collegeIds h
  rw [hof.id_eq, Catalog.head?_requirementId] at hhead
  cases kind with
  | college => exact hkind rfl
  | major => exact absurd hhead (by decide)
  | minor => exact absurd hhead (by decide)
  | grad => exact absurd hhead (by decide)

/-! ### the entries of a report -/

theorem exists_groupKeys (catalog : Catalog) (p : Profile) : ∃ rest,
    groupKeys catalog p = p.college.toList.map (.college, ·) ++ rest ∧
      ∀ key ∈ rest, key.1 ≠ .college := by
  have hother : ∀ kind : ProgramKind, kind ≠ .college → ∀ codes : List String,
      ∀ key ∈ codes.map (kind, ·), key.1 ≠ .college := by
    intro kind hkind codes key hkey
    obtain ⟨code, _, rfl⟩ := List.mem_map.mp hkey
    exact hkind
  rw [groupKeys_eq_append, List.append_assoc, List.append_assoc]
  refine ⟨_, rfl, fun key hkey => ?_⟩
  rcases List.mem_append.mp hkey with hmajor | hkey
  · exact hother .major (by decide) _ key hmajor
  · rcases List.mem_append.mp hkey with hminor | hgrad
    · exact hother .minor (by decide) _ key hminor
    · exact hother .grad (by decide) _ key hgrad

/-- the ids of the entries that no catalog lists -/
def madeUpIds (options : AuditOptions) (p : Profile) : List RequirementId :=
  p.college.toList.flatMap (collegeIds options)

variable {α : Type} [Amount α] {catalog : Catalog}

theorem entries_run (hc : catalog.Compiled) (options : AuditOptions) (table : ExamTable)
    (s : Student) :
    (run α options catalog table s).report.entries
      = s.profile.college.toList.flatMap (collegeEntries options s.profile (s.courses table)) ++
        (catalog.resolve s.profile s.choices s.overrides).map
          (entry (run α options catalog table s).allocation) := by
  have hgroups : (run α options catalog table s).report.entries
      = (groupKeys catalog s.profile).flatMap fun key =>
          headEntries options s.profile (s.courses table) key ++
            (catalog.resolveIn s.choices s.overrides key).map
              (entry (run α options catalog table s).allocation) := by
    refine (List.flatMap_map ..).trans (List.flatMap_congr fun key hkey => ?_)
    exact entries_group options (s.courses table) s.choices s.overrides hc hkey _
  obtain ⟨rest, hkeys, hrest⟩ := exists_groupKeys catalog s.profile
  have hothers : ∀ own : ProgramKind × String → List (ReportEntry α),
      rest.flatMap (fun key => headEntries options s.profile (s.courses table) key ++ own key)
        = rest.flatMap own := by
    intro own
    apply List.flatMap_congr
    intro key hkey
    unfold headEntries
    rw [if_neg (hrest key hkey), List.nil_append]
  rw [hgroups, hc.resolve_eq, hkeys, List.map_flatMap, List.flatMap_append, List.flatMap_append,
    hothers]
  cases s.profile.college with
  | none => rfl
  | some college => simp only [Option.toList_some, List.map_cons, List.map_nil,
      List.flatMap_singleton, headEntries, if_pos, List.append_assoc]

theorem ids_heads (α : Type) [Amount α] (options : AuditOptions) (table : ExamTable)
    (s : Student) :
    (s.profile.college.toList.flatMap
      (collegeEntries options s.profile (s.courses table))).map
        (fun e : ReportEntry α => e.requirement.id) = madeUpIds options s.profile := by
  rw [List.map_flatMap]
  apply List.flatMap_congr
  intro college _
  exact ids_collegeEntries options s.profile (s.courses table) college

theorem ids_entries_run (hc : catalog.Compiled) (options : AuditOptions) (table : ExamTable)
    (s : Student) :
    (run α options catalog table s).report.entries.map (·.requirement.id)
      = madeUpIds options s.profile ++
        (catalog.resolve s.profile s.choices s.overrides).map (·.id) := by
  rw [entries_run hc, List.map_append, ids_heads, List.map_map]
  rfl

theorem nodup_madeUpIds (options : AuditOptions) (p : Profile) : (madeUpIds options p).Nodup := by
  unfold madeUpIds
  cases p.college with
  | none => exact List.nodup_nil
  | some college =>
    rw [Option.toList_some, List.flatMap_singleton]
    exact nodup_collegeIds options college

theorem programKind_of_mem_madeUpIds (hc : catalog.Compiled) {s : Student} {r : Resolved}
    (hr : r ∈ catalog.resolve s.profile s.choices s.overrides)
    (h : r.id ∈ madeUpIds options s.profile) : r.requirement.programKind = .college := by
  rw [hc.resolve_eq] at hr
  obtain ⟨key, _, hr⟩ := List.mem_flatMap.mp hr
  obtain ⟨requirement, hmem, rfl⟩ := List.mem_map.mp hr
  obtain ⟨college, _, hid⟩ := List.mem_flatMap.mp h
  have hof : ∃ kind code, requirement.IsOf kind code := by
    rcases hc.isOf_of_mem_requirementsIn hmem with hof | ⟨_, hof⟩
    · exact ⟨_, _, hof⟩
    · exact ⟨_, _, hof⟩
  obtain ⟨kind, code, hof⟩ := hof
  by_contra hkind
  have hne : kind ≠ .college := fun e => hkind (hof.kind_eq.trans e)
  exact not_mem_collegeIds hof hne hid

theorem entry?_run (hc : catalog.Compiled) (options : AuditOptions) (table : ExamTable)
    {s : Student} {r : Resolved} (hr : r ∈ catalog.resolve s.profile s.choices s.overrides)
    (hnew : r.id ∉ madeUpIds options s.profile) :
    (run α options catalog table s).report.entry? r.id
      = some (entry (run α options catalog table s).allocation r) := by
  have hheads : (s.profile.college.toList.flatMap
      (collegeEntries options s.profile (s.courses table))).find?
        (fun e : ReportEntry α => e.requirement.id == r.id) = none := by
    rw [List.find?_eq_none]
    intro e he heq
    rw [← ids_heads α options table s, ← beq_iff_eq.mp heq] at hnew
    exact hnew (List.mem_map_of_mem he)
  have hnodup : (((catalog.resolve s.profile s.choices s.overrides).map fun r =>
      (entry (run α options catalog table s).allocation r : ReportEntry α)).map
        (·.requirement.id)).Nodup := by
    rw [List.map_map]
    exact catalog.nodup_ids_resolve s.profile s.choices s.overrides
  have hown := find?_of_nodup_map _ hnodup (List.mem_map_of_mem hr)
  show (run α options catalog table s).report.entries.find? _ = _
  rw [entries_run hc, List.find?_append, hheads, Option.none_or]
  exact hown

end Audit

namespace Sample

/-- a university that asks for one course -/
def declaredCourse (name code : String) : Declared.Catalog where
  university := [declared name code]
  colleges := {}
  majors := {}
  minors := {}
  grad := {}

end Sample

namespace Audit

open Sample

/-- **Ids can clash.**  A catalog with a requirement named as the swim test is in its id compiles,
and by that id the entry of the swim test is found instead of the requirement's own. -/
theorem not_nodup_entryIds : ∃ catalog,
    Catalog.compile (declaredCourse "SwimTest" "PE 1100") = .ok catalog ∧
    ¬((run Rat default catalog default (student [])).report.entries.map
      (·.requirement.id)).Nodup ∧
    ∃ r ∈ catalog.resolve (student []).profile {} {}, r.requirement.name = "SwimTest" ∧
      ((run Rat default catalog default (student [])).report.entry? r.id).map
        (·.requirement.name) = some "Swim Test" :=
  exists_ok_of_any (by decide +kernel)

/-- **Where ids identify entries.**  The ids of a report are different unless a requirement of the
university or of the college has a made-up one, and every requirement that has none is found by its
id. -/
theorem nodup_entryIds_iff (α : Type) [Amount α] {d : Declared.Catalog} {catalog : Catalog}
    (hcatalog : Catalog.compile d = .ok catalog) (options : AuditOptions) (table : ExamTable)
    (s : Student) :
    (((run α options catalog table s).report.entries.map (·.requirement.id)).Nodup ↔
      ∀ r ∈ catalog.resolve s.profile s.choices s.overrides,
        r.requirement.programKind = .college → r.id ∉ madeUpIds options s.profile) ∧
    ∀ r ∈ catalog.resolve s.profile s.choices s.overrides, r.id ∉ madeUpIds options s.profile →
      (run α options catalog table s).report.entry? r.id
        = some (entry (run α options catalog table s).allocation r) := by
  have hc := Catalog.compiled_of_compile hcatalog
  have hids := catalog.nodup_ids_resolve s.profile s.choices s.overrides
  constructor
  · rw [ids_entries_run hc, List.nodup_append]
    constructor
    · rintro ⟨_, _, hdisjoint⟩ r hr _ hid
      exact hdisjoint r.id hid r.id (List.mem_map_of_mem hr) rfl
    · intro h
      refine ⟨nodup_madeUpIds options s.profile, hids, ?_⟩
      rintro id hid _ hid' rfl
      obtain ⟨r, hr, rfl⟩ := List.mem_map.mp hid'
      exact h r hr (programKind_of_mem_madeUpIds hc hr hid) hid
  · exact fun r hr hnew => entry?_run hc options table hr hnew

/-- under another name the requirement has its id for itself -/
theorem nodup_entryIds_swimming : ∃ catalog,
    Catalog.compile (declaredCourse "Swimming" "PE 1100") = .ok catalog ∧
    ((run Rat default catalog default (student [])).report.entries.map
      (·.requirement.id)).Nodup ∧
    ∃ r ∈ catalog.resolve (student []).profile {} {}, r.requirement.name = "Swimming" ∧
      (run Rat default catalog default (student [])).report.entry? r.id
        = some (entry (run Rat default catalog default (student [])).allocation r) := by
  have hnew : ∃ catalog, Catalog.compile (declaredCourse "Swimming" "PE 1100") = .ok catalog ∧
      (∀ r ∈ catalog.resolve (student []).profile {} {},
        r.id ∉ madeUpIds default (student []).profile) ∧
      ∃ r ∈ catalog.resolve (student []).profile {} {}, r.requirement.name = "Swimming" :=
    exists_ok_of_any (by decide +kernel)
  obtain ⟨catalog, hcatalog, hnew, r, hr, hname⟩ := hnew
  have h := nodup_entryIds_iff Rat hcatalog default default (student [])
  exact ⟨catalog, hcatalog, h.1.mpr fun r hr _ => hnew r hr, r, hr, hname, h.2 r hr (hnew r hr)⟩

end Audit

end DegreeProgress
