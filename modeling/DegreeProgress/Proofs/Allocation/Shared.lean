import DegreeProgress.Proofs.Allocation.Contest

/-!
# Shared identities

The allocation warns of the identities that the dangerous graph connects to several requirements,
unless all of them share their courses.

* `Allocation.mem_doubleCounted_of_two`     two requirements that could use rows of an identity,
                                            one of which does not share its courses, are enough for
                                            a warning;
* `Allocation.two_of_mem_doubleCounted`     and there is no warning without them;
* `Allocation.mem_doubleCounted_iff`        which identities have a warning, by rows and
                                            requirements alone;
* `Allocation.keeps_of_not_doubleCounted`   without a warning every candidate is kept, so the two
                                            graphs have the same rows of the identity.
-/

namespace DegreeProgress

namespace Allocation

open CourseGraph

section
variable {requirements : List Resolved} (courses : List Course)
  (hids : (requirements.map (·.id)).Nodup)
include hids

theorem find?_reverse_id {r : Resolved} (hr : r ∈ requirements) :
    requirements.reverse.find? (·.id == r.id) = some r := by
  have hnd : (requirements.reverse.map (·.id)).Nodup := by
    rw [List.map_reverse, List.nodup_reverse]
    exact hids
  exact find?_of_nodup_map Resolved.id hnd (List.mem_reverse.mpr hr)

theorem mem_requirementsOf_dangerous {r : Resolved} (hr : r ∈ requirements) (u : UniqueId) :
    r.id ∈ (Allocation.of requirements courses).dangerous.requirementsOf u ↔ r.Uses courses u := by
  obtain ⟨log, hlog⟩ := records_dangerous requirements courses
  rw [hlog.mem_requirementsOf]
  constructor
  · rintro ⟨c, hc, hu⟩
    obtain ⟨hmem, hcand⟩ := mem_dangerous courses hids hr ((hlog.mem_coursesOf r.id c).mpr hc)
    exact ⟨c, hmem, hu, hcand⟩
  · rintro ⟨c, hc, rfl, hcand⟩
    obtain ⟨c', hc', he⟩ := List.mem_map.mp (identities_mem_dangerous courses hids hr hc hcand)
    exact ⟨c', (hlog.mem_coursesOf r.id c').mp hc', ((c'.identities_eq_iff c).mp he).1⟩

theorem exists_uses_of_mem_requirementsOf {u : UniqueId} {id : RequirementId}
    (h : id ∈ (Allocation.of requirements courses).dangerous.requirementsOf u) :
    ∃ r ∈ requirements, r.id = id ∧ r.Uses courses u := by
  obtain ⟨log, hlog⟩ := records_dangerous requirements courses
  obtain ⟨c, hc, hu⟩ := (hlog.mem_requirementsOf u id).mp h
  have hmem := (hlog.mem_coursesOf id c).mpr hc
  by_cases hid : id ∈ requirements.map (·.id)
  · obtain ⟨r, hr, rfl⟩ := List.mem_map.mp hid
    obtain ⟨hcourse, hcand⟩ := mem_dangerous courses hids hr hmem
    exact ⟨r, hr, rfl, c, hcourse, hu, hcand⟩
  · have hnil : (Allocation.of requirements courses).dangerous.coursesOf id = [] :=
      coursesOf_graph_eq_nil (fun _ _ _ => true) courses hid
    rw [hnil] at hmem
    exact absurd hmem List.not_mem_nil

/-- two requirements connected to an identity, not all of them sharing their courses -/
theorem mem_doubleCounted_of_two {r r' : Resolved} (hr : r ∈ requirements)
    (hr' : r' ∈ requirements) (hne : r ≠ r') (hd : r.doubleCounting = false) {u : UniqueId}
    (hu : r.Uses courses u) (hu' : r'.Uses courses u) :
    u ∈ (Allocation.of requirements courses).doubleCounted := by
  obtain ⟨log, hlog⟩ := records_dangerous requirements courses
  have hmem := (mem_requirementsOf_dangerous courses hids hr u).mpr hu
  have hmem' := (mem_requirementsOf_dangerous courses hids hr' u).mpr hu'
  have hkey : u ∈ (Allocation.of requirements courses).dangerous.uniqueIds := by
    obtain ⟨c, hc, hcu⟩ := (hlog.mem_requirementsOf u r.id).mp hmem
    exact (hlog.uniqueIds u).mpr ⟨(r.id, c), hc, hcu⟩
  have htwo : 2 ≤ ((Allocation.of requirements courses).dangerous.requirementsOf u).length := by
    by_contra hlt
    have hone := (length_le_one_iff (hlog.nodup_requirementsOf u) hmem).mp (by omega) r'.id hmem'
    exact hne (List.inj_on_of_nodup_map hids hr hr' hone.symm)
  show u ∈ SortedSet.ofList _
  rw [SortedSet.mem_ofList, List.mem_filter]
  refine ⟨hkey, ?_⟩
  rw [Bool.and_eq_true, decide_eq_true_eq, Bool.not_eq_true', List.all_eq_false]
  refine ⟨htwo, r.id, hmem, ?_⟩
  rw [find?_reverse_id hids hr, Option.map_some, Option.getD_some, hd]
  exact Bool.false_ne_true

/-- the two requirements behind a warning, and one of them that does not share its courses -/
theorem two_of_mem_doubleCounted {u : UniqueId}
    (h : u ∈ (Allocation.of requirements courses).doubleCounted) :
    (∃ r ∈ requirements, ∃ r' ∈ requirements, r ≠ r' ∧ r.Uses courses u ∧ r'.Uses courses u) ∧
      ∃ r ∈ requirements, r.Uses courses u ∧ r.doubleCounting = false := by
  obtain ⟨log, hlog⟩ := records_dangerous requirements courses
  have hlinked := (SortedSet.mem_ofList _ u).mp h
  rw [List.mem_filter, Bool.and_eq_true, decide_eq_true_eq, Bool.not_eq_true',
    List.all_eq_false] at hlinked
  obtain ⟨_, htwo, id, hid, hshares⟩ := hlinked
  obtain ⟨r, hr, rfl, huse⟩ := exists_uses_of_mem_requirementsOf courses hids hid
  constructor
  · -- were it the only one, the list of requirements would be of length one
    by_contra hno
    have honly : ∀ id' ∈ (Allocation.of requirements courses).dangerous.requirementsOf u,
        id' = r.id := by
      intro id' hid'
      obtain ⟨r', hr', rfl, huse'⟩ := exists_uses_of_mem_requirementsOf courses hids hid'
      by_contra hne
      exact hno ⟨r, hr, r', hr', fun e => hne (e ▸ rfl), huse, huse'⟩
    have hone := (length_le_one_iff (hlog.nodup_requirementsOf u) hid).mpr honly
    exact absurd (Nat.le_trans htwo hone) (by decide)
  · refine ⟨r, hr, huse, ?_⟩
    rw [find?_reverse_id hids hr, Option.map_some, Option.getD_some] at hshares
    exact Bool.eq_false_iff.mpr hshares

theorem keeps_of_not_doubleCounted {r : Resolved} (hr : r ∈ requirements) {c : Course}
    (hc : c ∈ courses) (hcand : r.isCandidate c = true)
    (hwarn : c.uniqueId ∉ (Allocation.of requirements courses).doubleCounted) :
    Keeps requirements courses r c := by
  cases hd : r.doubleCounting with
  | true => exact Or.inl hd
  | false =>
    -- any other requirement that could use the identity would raise the warning
    have halone : ∀ r' ∈ requirements, r'.Uses courses c.uniqueId → r' = r := by
      intro r' hr' hu'
      by_contra hne
      exact hwarn (mem_doubleCounted_of_two courses hids hr hr' (Ne.symm hne) hd
        ⟨c, hc, rfl, hcand⟩ hu')
    refine Or.inr (Or.inr ⟨?_, Or.inl ?_⟩)
    · rintro r' hr' _ ⟨c', hc', hu', hin⟩
      exact halone r' hr' ⟨c', hc', hu', Resolved.isCandidate_of_isOptedIn hin⟩
    · rintro r' hr' _ ⟨c', hc', hu', hm⟩
      exact halone r' hr' ⟨c', hc', hu', Resolved.isCandidate_of_isMatched hm⟩

theorem filter_coursesOf_eq_of_keeps {r : Resolved} (hr : r ∈ requirements) (p : Course → Bool)
    (h : ∀ c ∈ courses, r.isCandidate c = true → p c = true → Keeps requirements courses r c) :
    ((Allocation.of requirements courses).safe.coursesOf r.id).filter p
      = ((Allocation.of requirements courses).dangerous.coursesOf r.id).filter p := by
  obtain ⟨keep, hkeep, heq⟩ := coursesOf_safe courses hids hr
  rw [heq, List.filter_filter]
  apply List.filter_congr
  intro c hc
  obtain ⟨hmem, hcand⟩ := mem_dangerous courses hids hr hc
  cases hp : p c with
  | false => rfl
  | true => rw [(hkeep c hmem hcand).mpr (h c hmem hcand hp), Bool.and_true]

theorem filter_coursesOf_eq (p : Course → Bool)
    (h : ∀ r ∈ requirements, ∀ c ∈ courses, r.isCandidate c = true → p c = true →
      Keeps requirements courses r c) (id : RequirementId) :
    ((Allocation.of requirements courses).safe.coursesOf id).filter p
      = ((Allocation.of requirements courses).dangerous.coursesOf id).filter p := by
  by_cases hid : id ∈ requirements.map (·.id)
  · obtain ⟨r, hr, rfl⟩ := List.mem_map.mp hid
    exact filter_coursesOf_eq_of_keeps courses hids hr p (h r hr)
  · have hsafe : (Allocation.of requirements courses).safe.coursesOf id = [] :=
      coursesOf_graph_eq_nil _ courses hid
    have hdang : (Allocation.of requirements courses).dangerous.coursesOf id = [] :=
      coursesOf_graph_eq_nil (fun _ _ _ => true) courses hid
    rw [hsafe, hdang]

/-- **Without a warning the graphs agree**: they have the same rows of the identity. -/
theorem filter_safe_eq_filter_dangerous {u : UniqueId}
    (hwarn : u ∉ (Allocation.of requirements courses).doubleCounted) (id : RequirementId) :
    ((Allocation.of requirements courses).safe.coursesOf id).filter (fun c => c.uniqueId = u)
      = ((Allocation.of requirements courses).dangerous.coursesOf id).filter
          fun c => c.uniqueId = u := by
  apply filter_coursesOf_eq courses hids
  intro r hr c hc hcand hu
  rw [← of_decide_eq_true hu] at hwarn
  exact keeps_of_not_doubleCounted courses hids hr hc hcand hwarn

theorem coursesOf_safe_eq_dangerous
    (hwarn : (Allocation.of requirements courses).doubleCounted = ∅) (id : RequirementId) :
    (Allocation.of requirements courses).safe.coursesOf id
      = (Allocation.of requirements courses).dangerous.coursesOf id := by
  have h := filter_coursesOf_eq courses hids (fun _ => true) (fun r hr c hc hcand _ =>
    keeps_of_not_doubleCounted courses hids hr hc hcand
      (hwarn ▸ SortedSet.not_mem_empty c.uniqueId)) id
  rwa [List.filter_true, List.filter_true] at h

/-- **Who is warned of.**  An identity has a warning iff two requirements could use rows of it and
one that could does not share its courses. -/
theorem mem_doubleCounted_iff (u : UniqueId) :
    u ∈ (Allocation.of requirements courses).doubleCounted ↔
      (∃ r ∈ requirements, ∃ r' ∈ requirements, r ≠ r' ∧ r.Uses courses u ∧ r'.Uses courses u) ∧
        ∃ r ∈ requirements, r.Uses courses u ∧ r.doubleCounting = false := by
  refine ⟨two_of_mem_doubleCounted courses hids, ?_⟩
  rintro ⟨⟨r₁, hr₁, r₂, hr₂, hne, hu₁, hu₂⟩, r, hr, hu, hd⟩
  by_cases h : r = r₁
  · subst h
    exact mem_doubleCounted_of_two courses hids hr hr₂ hne hd hu hu₂
  · exact mem_doubleCounted_of_two courses hids hr hr₁ h hd hu hu₁

end

/-- both requirements could use course 11 -/
theorem mem_doubleCounted_iff_shared :
    (Sample.requirements.map (·.id)).Nodup ∧
    Sample.core.resolveDefault.Uses Sample.courses (.numeric 11) ∧
    Sample.elective.resolveDefault.Uses Sample.courses (.numeric 11) ∧
    .numeric 11 ∈ (Allocation.of Sample.requirements Sample.courses).doubleCounted := by
  have hids : (Sample.requirements.map (·.id)).Nodup := by decide
  have hcore : Sample.core.resolveDefault.Uses Sample.courses (.numeric 11) :=
    ⟨Sample.course 11, List.mem_cons_self, rfl, by decide⟩
  have helective : Sample.elective.resolveDefault.Uses Sample.courses (.numeric 11) :=
    ⟨Sample.course 11, List.mem_cons_self, rfl, by decide⟩
  have hne : Sample.core.resolveDefault ≠ Sample.elective.resolveDefault :=
    fun h => absurd (congrArg Resolved.id h) (by decide)
  refine ⟨hids, hcore, helective, ?_⟩
  apply (mem_doubleCounted_iff Sample.courses hids (.numeric 11)).mpr
  constructor
  · exact ⟨Sample.core.resolveDefault, List.mem_cons_self, Sample.elective.resolveDefault,
      List.mem_cons_of_mem _ List.mem_cons_self, hne, hcore, helective⟩
  · exact ⟨Sample.core.resolveDefault, List.mem_cons_self, hcore, rfl⟩

end Allocation

end DegreeProgress
