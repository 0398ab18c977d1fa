import DegreeProgress.Proofs.Allocation.Graphs
import DegreeProgress.Proofs.Audit.Report
import DegreeProgress.Proofs.Catalog.Compiled

/-!
# The groups of a report

A report has a group for the college and for every known program of the student.  Which programs
these are and which requirements apply is found in two passes over the profile.  Here they agree:

* `Catalog.applicable_eq`         the requirements that apply are those of the programs with a
                                  group, one after the other;
* `Catalog.Compiled.resolve_eq`   a program that is given twice counts once, as its group does;
* `Audit.entries_group`           a group shows the requirements of its own program, all of them,
                                  after what no catalog lists;
* `Audit.groups_run`              so the entries of the groups put together are for the resolved
                                  requirements, each once and in order.
-/

namespace DegreeProgress

/-- the requirements of a program; those of the university come before those of the college -/
def Catalog.requirementsIn (c : Catalog) (key : ProgramKind × String) : List Requirement :=
  (if key.1 = .college then c.university else []) ++ c.requirementsOf key.1 [key.2]

namespace Audit

/-- the programs of a profile, known or not -/
def programKeys (p : Profile) : List (ProgramKind × String) :=
  Catalog.kinds.flatMap fun kind => (codes p kind).map (kind, ·)

/-- the program gets a group -/
def isKnown (catalog : Catalog) (key : ProgramKind × String) : Bool :=
  key.1 == .college || (catalog.program? key.1 key.2).isSome

theorem mem_programKeys {p : Profile} {key : ProgramKind × String} :
    key ∈ programKeys p ↔ key.2 ∈ codes p key.1 := by
  obtain ⟨kind, code⟩ := key
  unfold programKeys
  rw [List.mem_flatMap]
  constructor
  · rintro ⟨kind', _, h⟩
    obtain ⟨code', hcode, heq⟩ := List.mem_map.mp h
    cases heq
    exact hcode
  · intro h
    refine ⟨kind, ?_, List.mem_map_of_mem h⟩
    cases kind <;> decide

theorem groupKeys_eq (catalog : Catalog) (p : Profile) :
    groupKeys catalog p = firstPer id ((programKeys p).filter (isKnown catalog)) := by
  unfold groupKeys programKeys
  rw [eraseDups_eq_firstPer, List.filter_flatMap]
  congr 1
  apply List.flatMap_congr
  intro kind _
  rw [List.filter_map]
  rfl

theorem mem_programKeys_of_mem_groupKeys {catalog : Catalog} {p : Profile}
    {key : ProgramKind × String} (h : key ∈ groupKeys catalog p) : key ∈ programKeys p := by
  rw [groupKeys_eq] at h
  exact (List.mem_filter.mp ((firstPer_sublist id _).subset h)).1

theorem nodup_groupKeys (catalog : Catalog) (p : Profile) : (groupKeys catalog p).Nodup := by
  have h := nodup_map_firstPer id ((programKeys p).filter (isKnown catalog))
  rwa [List.map_id, ← groupKeys_eq] at h

/-- a requirement is shown with one program only, since a profile has one college at most -/
theorem eq_of_isShownIn {p : Profile} {key key' : ProgramKind × String} {r : Requirement}
    (hkey : key ∈ programKeys p) (hkey' : key' ∈ programKeys p) (h : isShownIn key r = true)
    (h' : isShownIn key' r = true) : key = key' := by
  rw [mem_programKeys] at hkey hkey'
  obtain ⟨kind, code⟩ := key
  obtain ⟨kind', code'⟩ := key'
  unfold isShownIn at h h'
  rw [Bool.and_eq_true, Bool.or_eq_true, beq_iff_eq, beq_iff_eq, beq_iff_eq] at h h'
  obtain ⟨hkind, hcode⟩ := h
  obtain ⟨hkind', hcode'⟩ := h'
  have hkinds : kind = kind' := hkind.trans hkind'.symm
  subst hkinds
  have hcodes : code = code' := by
    by_cases hcollege : kind = .college
    · subst hcollege
      have h₁ : p.college = some code := Option.mem_toList.mp hkey
      have h₂ : p.college = some code' := Option.mem_toList.mp hkey'
      exact Option.some.inj (h₁.symm.trans h₂)
    · exact (hcode.resolve_left hcollege).trans (hcode'.resolve_left hcollege).symm
  rw [hcodes]

end Audit

/-! ### the requirements of a program -/

namespace Catalog

variable {c : Catalog}

theorem requirementsOf_singleton (c : Catalog) (kind : ProgramKind) (code : String) :
    c.requirementsOf kind [code] = ((c.program? kind code).map (·.requirements)).getD [] :=
  List.flatMap_singleton _ code

theorem requirementsOf_eq_flatMap (c : Catalog) (kind : ProgramKind) (codes : List String) :
    c.requirementsOf kind codes = codes.flatMap fun code => c.requirementsOf kind [code] :=
  List.flatMap_congr fun code _ => (c.requirementsOf_singleton kind code).symm

theorem requirementsIn_of_ne {kind : ProgramKind} (h : kind ≠ .college) (code : String) :
    c.requirementsIn (kind, code) = c.requirementsOf kind [code] := by
  unfold requirementsIn
  rw [if_neg h, List.nil_append]

theorem requirementsOf_sublist (c : Catalog) (kind : ProgramKind) (code : String) :
    (c.requirementsOf kind [code]).Sublist
      ((c.programs kind).values.flatMap (·.requirements)) := by
  rw [requirementsOf_singleton]
  unfold program?
  cases hget : (c.programs kind).get? code with
  | none => exact List.nil_sublist _
  | some program =>
    exact List.sublist_flatten_of_mem (List.mem_map_of_mem (SortedMap.mem_values_of_get? hget))

theorem requirementsIn_sublist (c : Catalog) (key : ProgramKind × String) :
    (c.requirementsIn key).Sublist c.requirements := by
  unfold requirementsIn requirements
  apply List.Sublist.append
  · split
    · exact List.Sublist.refl _
    · exact List.nil_sublist _
  · have hkind : key.1 ∈ kinds := by cases key.1 <;> decide
    apply (c.requirementsOf_sublist key.1 key.2).trans
    exact List.sublist_flatten_of_mem (List.mem_map_of_mem hkind)

theorem Compiled.isOf_of_mem_requirementsOf (hc : c.Compiled) {kind : ProgramKind} {code : String}
    {r : Requirement} (h : r ∈ c.requirementsOf kind [code]) : r.IsOf kind code := by
  rw [requirementsOf_singleton] at h
  unfold program? at h
  cases hget : (c.programs kind).get? code with
  | none =>
    rw [hget] at h
    exact absurd h List.not_mem_nil
  | some program =>
    rw [hget] at h
    exact hc.programs kind (code, program) (SortedMap.mem_entries_of_get? hget) r h

theorem Compiled.isOf_of_mem_requirementsIn (hc : c.Compiled) {key : ProgramKind × String}
    {r : Requirement} (h : r ∈ c.requirementsIn key) :
    r.IsOf key.1 key.2 ∨ key.1 = .college ∧ r.IsOf .college universityCode := by
  rcases List.mem_append.mp h with h | h
  · split at h
    · rename_i hcollege
      exact Or.inr ⟨hcollege, hc.university r h⟩
    · exact absurd h List.not_mem_nil
  · exact Or.inl (hc.isOf_of_mem_requirementsOf h)

theorem Compiled.isShownIn_of_mem (hc : c.Compiled) {key : ProgramKind × String}
    {r : Requirement} (h : r ∈ c.requirementsIn key) : Audit.isShownIn key r = true := by
  unfold Audit.isShownIn
  rw [Bool.and_eq_true, Bool.or_eq_true, beq_iff_eq, beq_iff_eq, beq_iff_eq]
  rcases hc.isOf_of_mem_requirementsIn h with hof | ⟨hcollege, hof⟩
  · exact ⟨hof.kind_eq.symm, Or.inr hof.code_eq.symm⟩
  · exact ⟨hcollege.trans hof.kind_eq.symm, Or.inl hcollege⟩

theorem Compiled.nodup_ids_requirementsIn (hc : c.Compiled) (key : ProgramKind × String) :
    ((c.requirementsIn key).map (·.id)).Nodup :=
  hc.nodup_ids.sublist ((c.requirementsIn_sublist key).map _)

theorem applicable_eq_programKeys (c : Catalog) (p : Profile) :
    c.applicable p = (Audit.programKeys p).flatMap c.requirementsIn := by
  have hother : ∀ kind, kind ≠ .college → ∀ codes : List String,
      (codes.map (kind, ·)).flatMap c.requirementsIn = c.requirementsOf kind codes := by
    intro kind hkind codes
    rw [List.flatMap_map, requirementsOf_eq_flatMap]
    exact List.flatMap_congr fun code _ => requirementsIn_of_ne hkind code
  have hcollege : (p.college.toList.map (ProgramKind.college, ·)).flatMap c.requirementsIn
      = (if p.college.isSome then c.university else []) ++
          c.requirementsOf .college p.college.toList := by
    cases p.college with
    | none => rfl
    | some code => exact List.flatMap_singleton _ _
  unfold applicable Audit.programKeys kinds
  rw [List.flatMap_cons, List.flatMap_cons, List.flatMap_cons, List.flatMap_singleton,
    List.flatMap_append, List.flatMap_append, List.flatMap_append]
  show _ = (p.college.toList.map (ProgramKind.college, ·)).flatMap c.requirementsIn ++
    ((p.majors.map (ProgramKind.major, ·)).flatMap c.requirementsIn ++
      ((p.minors.map (ProgramKind.minor, ·)).flatMap c.requirementsIn ++
        (p.gradProgram.toList.map (ProgramKind.grad, ·)).flatMap c.requirementsIn))
  rw [hcollege, hother .major (by decide), hother .minor (by decide), hother .grad (by decide)]
  simp only [List.append_assoc]

theorem requirementsIn_of_not_isKnown {key : ProgramKind × String}
    (h : Audit.isKnown c key = false) : c.requirementsIn key = [] := by
  obtain ⟨kind, code⟩ := key
  unfold Audit.isKnown at h
  rw [Bool.or_eq_false_iff, beq_eq_false_iff_ne, Option.isSome_eq_false_iff,
    Option.isNone_iff_eq_none] at h
  obtain ⟨hkind, hnone⟩ := h
  rw [requirementsIn_of_ne hkind, requirementsOf_singleton, hnone]
  rfl

theorem applicable_eq (c : Catalog) (p : Profile) :
    c.applicable p
      = ((Audit.programKeys p).filter (Audit.isKnown c)).flatMap c.requirementsIn := by
  rw [applicable_eq_programKeys]
  apply flatMap_eq_flatMap_filter
  intro key _
  cases hknown : Audit.isKnown c key with
  | true => rfl
  | false => exact requirementsIn_of_not_isKnown hknown

/-- requirements of two programs of a student have different ids -/
theorem Compiled.key_unique (hc : c.Compiled) {p : Profile} {key key' : ProgramKind × String}
    (hkey : key ∈ Audit.programKeys p) (hkey' : key' ∈ Audit.programKeys p) {r r' : Requirement}
    (hr : r ∈ c.requirementsIn key) (hr' : r' ∈ c.requirementsIn key') (h : r.id = r'.id) :
    key = key' := by
  have hmem := (c.requirementsIn_sublist key).subset hr
  have hmem' := (c.requirementsIn_sublist key').subset hr'
  have hsame : r = r' := List.inj_on_of_nodup_map hc.nodup_ids hmem hmem' h
  subst hsame
  exact Audit.eq_of_isShownIn hkey hkey' (hc.isShownIn_of_mem hr) (hc.isShownIn_of_mem hr')

/-- the requirements of a program, with the options and overrides of a student -/
def resolveIn (c : Catalog) (choices : OptionChoices) (overrides : Overrides)
    (key : ProgramKind × String) : List Resolved :=
  (c.requirementsIn key).map (·.resolve choices overrides)

/-- **Two passes agree.**  Leaving out requirements whose ids were met before is the same as leaving
out programs that were met before. -/
theorem Compiled.resolve_eq (hc : c.Compiled) (p : Profile) (choices : OptionChoices)
    (overrides : Overrides) :
    c.resolve p choices overrides
      = (Audit.groupKeys c p).flatMap (c.resolveIn choices overrides) := by
  -- an id occurs in one program, so whole programs are left out or none of a program is
  have hparts : ∀ key ∈ (Audit.programKeys p).filter (Audit.isKnown c),
      ∀ key' ∈ (Audit.programKeys p).filter (Audit.isKnown c), ∀ r ∈ c.requirementsIn key,
      ∀ r' ∈ c.requirementsIn key', r.id = r'.id → key = key' := by
    intro key hkey key' hkey' r hr r' hr' h
    exact hc.key_unique (List.mem_filter.mp hkey).1 (List.mem_filter.mp hkey').1 hr hr' h
  unfold resolve
  rw [distinctById_eq, applicable_eq, firstPer_flatMap _ _ _ hparts, ← Audit.groupKeys_eq,
    List.map_flatMap]
  apply List.flatMap_congr
  intro key _
  rw [firstPer_eq_self _ (hc.nodup_ids_requirementsIn key)]
  rfl

end Catalog

/-! ### the groups -/

def ReportGroup.key {α : Type} (g : ReportGroup α) : ProgramKind × String := (g.kind, g.code)

/-- the entry tells which requirement it is for, and its progress in both graphs -/
structure ReportEntry.IsFor {α : Type} [Amount α] (a : Allocation) (e : ReportEntry α)
    (r : Resolved) : Prop where
  summary : e.requirement = r.summary
  id : e.requirement.id = r.requirement.id
  name : e.requirement.name = r.requirement.name
  programKind : e.requirement.programKind = r.requirement.programKind
  programCode : e.requirement.programCode = r.requirement.programCode
  safe : e.fulfillment.safe = .of r (a.safe.coursesOf r.id)
  dangerous : e.fulfillment.dangerous = .of r (a.dangerous.coursesOf r.id)

/-- the codes that the catalog knows, each once -/
def Catalog.knownCodes (c : Catalog) (kind : ProgramKind) (codes : List String) : List String :=
  (codes.filter fun code => (c.program? kind code).isSome).eraseDups

namespace Audit

theorem eraseDups_map_key (kind : ProgramKind) (codes : List String) :
    (codes.map (kind, ·)).eraseDups = codes.eraseDups.map (kind, ·) := by
  rw [eraseDups_eq_firstPer, eraseDups_eq_firstPer, firstPer_map]
  congr 1
  apply firstPer_congr
  intro code code'
  show (kind, code) = (kind, code') ↔ code = code'
  rw [Prod.mk.injEq]
  exact and_iff_right rfl

/-- the programs of each kind lose their repeated codes on their own -/
theorem groupKeys_eq_append (catalog : Catalog) (p : Profile) :
    groupKeys catalog p
      = p.college.toList.map (.college, ·) ++
        (catalog.knownCodes .major p.majors).map (.major, ·) ++
        (catalog.knownCodes .minor p.minors).map (.minor, ·) ++
        (catalog.knownCodes .grad p.gradProgram.toList).map (.grad, ·) := by
  have hkinds : firstPer id Catalog.kinds = Catalog.kinds := by decide
  have hcollege : ∀ o : Option String, (o.toList.filter fun _ => true).eraseDups = o.toList := by
    intro o
    cases o <;> rfl
  unfold groupKeys
  rw [eraseDups_eq_firstPer, firstPer_flatMap, hkinds]
  · simp only [← eraseDups_eq_firstPer, eraseDups_map_key]
    unfold Catalog.kinds
    rw [List.flatMap_cons, List.flatMap_cons, List.flatMap_cons, List.flatMap_singleton]
    show ((p.college.toList.filter fun _ => true).eraseDups.map _) ++ _ = _
    rw [hcollege, List.append_assoc, List.append_assoc]
    rfl
  · intro kind _ kind' _ key hkey key' hkey' h
    obtain ⟨code, _, rfl⟩ := List.mem_map.mp hkey
    obtain ⟨code', _, rfl⟩ := List.mem_map.mp hkey'
    exact (Prod.mk.inj h).1

section
variable {α : Type} [Amount α] {catalog : Catalog} (options : AuditOptions) (p : Profile)
  (courses : List Course)

/-- the entries of a group that no catalog lists -/
def headEntries (key : ProgramKind × String) : List (ReportEntry α) :=
  if key.1 = .college then collegeEntries options p courses key.2 else []

/-- the ids of a college's entries that no catalog lists -/
def collegeIds (college : String) : List RequirementId :=
  (if options.totalCredits.enabled = true ∧ college ∈ options.totalCredits.colleges.keys then
    [CreditPolicy.requirementId college] else []) ++
  if options.swimTest then [SwimTest.requirementId] else []

theorem ids_collegeEntries (college : String) :
    (collegeEntries options p courses college).map (fun e : ReportEntry α => e.requirement.id)
      = collegeIds options college := by
  unfold collegeEntries collegeIds CreditPolicy.entry?
  rw [List.map_append]
  simp only [SortedMap.mem_keys_iff]
  congr 1
  · cases options.totalCredits.enabled with
    | false => rfl
    | true =>
      cases options.totalCredits.colleges.get? college with
      | none => rfl
      | some eligibility => rfl
  · cases options.swimTest with
    | false => rfl
    | true => rfl

theorem ids_headEntries (key : ProgramKind × String) :
    (headEntries options p courses key).map (fun e : ReportEntry α => e.requirement.id)
      = if key.1 = .college then collegeIds options key.2 else [] := by
  unfold headEntries
  split
  · exact ids_collegeEntries options p courses key.2
  · rfl

variable (choices : OptionChoices) (overrides : Overrides) {p}

theorem find?_isShownIn (hc : catalog.Compiled) {key : ProgramKind × String}
    (hkey : key ∈ groupKeys catalog p) {r : Resolved}
    (hr : r ∈ catalog.resolveIn choices overrides key) :
    (groupKeys catalog p).find? (isShownIn · r.requirement) = some key := by
  obtain ⟨requirement, hmem, rfl⟩ := List.mem_map.mp hr
  have hown : isShownIn key requirement = true := hc.isShownIn_of_mem hmem
  show (groupKeys catalog p).find? (isShownIn · requirement) = some key
  cases hfind : (groupKeys catalog p).find? (isShownIn · requirement) with
  | none => exact absurd hown (List.find?_eq_none.mp hfind key hkey)
  | some key' =>
    have hkey' := List.mem_of_find?_eq_some hfind
    have hshown : isShownIn key' requirement = true :=
      List.find?_some (p := (isShownIn · requirement)) hfind
    rw [eq_of_isShownIn (mem_programKeys_of_mem_groupKeys hkey')
      (mem_programKeys_of_mem_groupKeys hkey) hshown hown]

/-- a group shows the requirements of its program -/
theorem entries_group (hc : catalog.Compiled) {key : ProgramKind × String}
    (hkey : key ∈ groupKeys catalog p) (a : Allocation) :
    (group options p courses a (catalog.resolve p choices overrides) (groupKeys catalog p)
        key : ReportGroup α).entries
      = headEntries options p courses key ++
          (catalog.resolveIn choices overrides key).map (entry a) := by
  have hown : (catalog.resolve p choices overrides).filter (fun r =>
      (groupKeys catalog p).find? (isShownIn · r.requirement) == some key)
        = catalog.resolveIn choices overrides key := by
    -- of all programs' requirements the filter finds those of this one
    rw [hc.resolve_eq]
    apply filter_flatMap_eq _ _ _ key hkey (nodup_groupKeys catalog p)
    · intro r hr
      rw [find?_isShownIn choices overrides hc hkey hr, beq_self_eq_true]
    · intro key' hkey' hne r hr
      rw [find?_isShownIn choices overrides hc hkey' hr, beq_eq_false_iff_ne]
      exact fun h => hne (Option.some.inj h)
  unfold group headEntries
  rw [hown]
  simp only [beq_iff_eq]

end

theorem entry_isFor {α : Type} [Amount α] (a : Allocation) (r : Resolved) :
    (entry a r : ReportEntry α).IsFor a r :=
  ⟨rfl, rfl, rfl, rfl, rfl, rfl, rfl⟩

theorem entries_isFor (α : Type) [Amount α] (a : Allocation) (rs : List Resolved) :
    List.Forall₂ (ReportEntry.IsFor a) (rs.map fun r => (entry a r : ReportEntry α)) rs := by
  rw [List.forall₂_map_left_iff, List.forall₂_same]
  exact fun r _ => entry_isFor a r

/-- **A report loses and repeats nothing.**  It has a group for the college and for every known
program of the student.  After what no catalog lists, the entries of a group are for the
requirements of its own program, and those of all groups are for the resolved requirements, each
once and in order. -/
theorem groups_run (α : Type) [Amount α] {d : Declared.Catalog} {catalog : Catalog}
    (hcatalog : Catalog.compile d = .ok catalog) (options : AuditOptions) (table : ExamTable)
    (s : Student) :
    let outcome := run α options catalog table s
    let resolved := catalog.resolve s.profile s.choices s.overrides
    let own := fun g : ReportGroup α => catalog.resolveIn s.choices s.overrides g.key
    let heads := fun g : ReportGroup α => headEntries options s.profile (s.courses table) g.key
    let listed := fun g : ReportGroup α => g.entries.drop (heads g).length
    outcome.report.groups.map ReportGroup.key
        = s.profile.college.toList.map (.college, ·) ++
          (catalog.knownCodes .major s.profile.majors).map (.major, ·) ++
          (catalog.knownCodes .minor s.profile.minors).map (.minor, ·) ++
          (catalog.knownCodes .grad s.profile.gradProgram.toList).map (.grad, ·) ∧
      (∀ g ∈ outcome.report.groups,
        g.entries = heads g ++ (own g).map (entry outcome.allocation) ∧
        (heads g).map (fun e => e.requirement.id)
          = (if g.kind = .college then collegeIds options g.code else []) ∧
        List.Forall₂ (ReportEntry.IsFor outcome.allocation) (listed g) (own g) ∧
        ∀ r ∈ own g, r.requirement.IsOf g.kind g.code ∨
          g.kind = .college ∧ r.requirement.IsOf .college Catalog.universityCode) ∧
      outcome.report.groups.flatMap own = resolved ∧
      List.Forall₂ (ReportEntry.IsFor outcome.allocation) (outcome.report.groups.flatMap listed)
        resolved ∧
      (resolved.map (·.id)).Nodup := by
  intro outcome resolved own heads listed
  have hc := Catalog.compiled_of_compile hcatalog
  have hentries : ∀ g ∈ outcome.report.groups,
      g.entries = heads g ++ (own g).map (entry outcome.allocation) := by
    intro g hg
    obtain ⟨key, hkey, rfl⟩ := List.mem_map.mp hg
    exact entries_group options (s.courses table) s.choices s.overrides hc hkey _
  have hlisted : ∀ g ∈ outcome.report.groups,
      listed g = (own g).map (entry outcome.allocation) := by
    intro g hg
    show g.entries.drop (heads g).length = _
    rw [hentries g hg, List.drop_left]
  have hown : outcome.report.groups.flatMap own = resolved :=
    (List.flatMap_map ..).trans (hc.resolve_eq s.profile s.choices s.overrides).symm
  refine ⟨?_, ?_, hown, ?_, catalog.nodup_ids_resolve _ _ _⟩
  · rw [← groupKeys_eq_append]
    exact (List.map_map ..).trans (List.map_id _)
  · intro g hg
    refine ⟨hentries g hg, ?_, ?_, ?_⟩
    · obtain ⟨key, _, rfl⟩ := List.mem_map.mp hg
      exact ids_headEntries options _ _ key
    · rw [hlisted g hg]
      exact entries_isFor α outcome.allocation (own g)
    · intro r hr
      obtain ⟨key, _, rfl⟩ := List.mem_map.mp hg
      obtain ⟨requirement, hmem, rfl⟩ := List.mem_map.mp hr
      exact hc.isOf_of_mem_requirementsIn hmem
  · rw [List.flatMap_congr hlisted, ← List.map_flatMap, hown]
    exact entries_isFor α outcome.allocation resolved

end Audit

namespace Sample

/-- a declared requirement of one course -/
def declared (name code : String) : Declared.Requirement where
  name
  description := ""
  source := ""
  fulfilledBy := .courses
  slots := { checkers := [.codes [code]], minCounts := [1.0], names := [name] }
  choices := []
  doubleCounting := false

/-- a catalog with a major and a minor under one code -/
def declaredPrograms : Declared.Catalog where
  university := [declared "Writing" "ENGL 1100"]
  colleges := .ofList [("EN", ⟨"Engineering", [], [declared "Statics" "ENGRD 2020"]⟩)]
  majors := .ofList [("CS", ⟨"Computer Science", ["EN"], [declared "Core" "CS 2110"]⟩)]
  minors := .ofList [("CS", ⟨"Computer Science", [], [declared "Core" "CS 1110"]⟩)]
  grad := {}

/-- a student with the major twice, and with one that is unknown -/
def repeating : Student := { student [] with
  profile := ⟨some "EN", ["CS", "Alchemy", "CS"], ["CS"], none, [], false⟩ }

end Sample

namespace Audit

open Sample

theorem groups_run_repeating : ∃ catalog, Catalog.compile declaredPrograms = .ok catalog ∧
    (run Rat default catalog default repeating).report.groups.map ReportGroup.key
      = [(.college, "EN"), (.major, "CS"), (.minor, "CS")] ∧
    (run Rat default catalog default repeating).report.groups.flatMap
        (fun g => catalog.resolveIn {} {} g.key)
      = catalog.resolve repeating.profile {} {} ∧
    ((run Rat default catalog default repeating).report.groups.flatMap fun g =>
        g.entries.drop (headEntries default repeating.profile (repeating.courses default) g.key :
          List (ReportEntry Rat)).length).map (·.requirement.name)
      = ["Writing", "Statics", "Core", "Core"] := by
  have hknown : ∃ catalog, Catalog.compile declaredPrograms = .ok catalog ∧
      catalog.knownCodes .major repeating.profile.majors = ["CS"] ∧
      catalog.knownCodes .minor repeating.profile.minors = ["CS"] ∧
      (catalog.resolve repeating.profile {} {}).map (·.requirement.name)
        = ["Writing", "Statics", "Core", "Core"] :=
    exists_ok_of_any (by decide +kernel)
  obtain ⟨catalog, hcatalog, hmajors, hminors, hnames⟩ := hknown
  obtain ⟨hkeys, _, hown, hfor, _⟩ := groups_run Rat hcatalog default default repeating
  rw [hmajors, hminors] at hkeys
  refine ⟨catalog, hcatalog, hkeys, hown, ?_⟩
  rw [← hnames, ← List.forall₂_eq_eq_eq, List.forall₂_map_left_iff, List.forall₂_map_right_iff]
  exact hfor.imp fun _ _ h => h.name

end Audit

end DegreeProgress
