import DegreeProgress.Proofs.Allocation.Ties

/-!
# Requirements that share their courses

The contest for identities is that of the requirements that do not share their courses, the
`exclusive` ones.  The others keep all their candidates and take nothing from anyone.

* `Allocation.wins_exclusive`            the contest among the exclusive requirements alone has the
                                         same winners;
* `Allocation.exclusive_of_sublist`      they stay when others go;
* `Allocation.of_sublist_requirements`   so requirements that share their courses may come and go.
-/

namespace DegreeProgress

namespace Allocation

/-! ### the exclusive requirements -/

/-- the requirements that do not share their courses -/
def exclusive (requirements : List Resolved) : List Resolved :=
  requirements.filter fun r => !r.doubleCounting

section
variable {requirements : List Resolved} {courses : List Course} {r : Resolved} {u : UniqueId}

theorem mem_exclusive :
    r ∈ exclusive requirements ↔ r ∈ requirements ∧ r.doubleCounting = false := by
  unfold exclusive
  rw [List.mem_filter, Bool.not_eq_true']

variable (hd : r.doubleCounting = false)
include hd

theorem firstDedicated_exclusive : FirstDedicated (exclusive requirements) courses r u
    ↔ FirstDedicated requirements courses r u := by
  constructor
  · rintro ⟨before, after, hsplit, honly, hfirst⟩
    -- the requirements before `r` are those of `before`, and some that share their courses
    obtain ⟨l, rest, rfl, rfl, hrest⟩ := List.filter_eq_append_iff.mp hsplit
    obtain ⟨shared, tail, rfl, hshared, _, _⟩ := List.filter_eq_cons_iff.mp hrest
    refine ⟨l ++ shared, tail, by rw [List.append_assoc], honly, ?_⟩
    intro r' hr' hd'
    rcases List.mem_append.mp hr' with h | h
    · exact hfirst r' (mem_exclusive.mpr ⟨h, hd'⟩) hd'
    · have hnot := hshared r' h
      simp [hd'] at hnot
  · rintro ⟨before, after, rfl, honly, hfirst⟩
    have hr : (!r.doubleCounting) = true := by simp [hd]
    refine ⟨exclusive before, exclusive after, ?_, honly, ?_⟩
    · unfold exclusive
      rw [List.filter_append, List.filter_cons, if_pos hr]
    · intro r' hr' hd'
      exact hfirst r' (mem_exclusive.mp hr').1 hd'

theorem wins_exclusive :
    Wins (exclusive requirements) courses r u ↔ Wins requirements courses r u := by
  have hall : ∀ p : Resolved → Prop,
      (∀ r' ∈ exclusive requirements, r'.doubleCounting = false → p r' → r' = r)
        ↔ ∀ r' ∈ requirements, r'.doubleCounting = false → p r' → r' = r := by
    intro p
    constructor
    · exact fun h r' hr' hd' => h r' (mem_exclusive.mpr ⟨hr', hd'⟩) hd'
    · exact fun h r' hr' hd' => h r' (mem_exclusive.mp hr').1 hd'
  constructor
  · intro h
    exact ⟨(hall _).mp h.unclaimed, h.preferred.imp (hall _).mp (firstDedicated_exclusive hd).mp⟩
  · intro h
    exact ⟨(hall _).mpr h.unclaimed, h.preferred.imp (hall _).mpr (firstDedicated_exclusive hd).mpr⟩

end

/-! ### fewer requirements -/

section
variable {requirements kept : List Resolved} (hids : (requirements.map (·.id)).Nodup)
  (hsub : kept.Sublist requirements)
  (hgone : ∀ r ∈ requirements, r ∉ kept → r.doubleCounting = true)
include hids hsub hgone

theorem exclusive_of_sublist : exclusive kept = exclusive requirements := by
  have hnd : (exclusive requirements).Nodup := (List.Nodup.of_map _ hids).filter _
  have hsub' : (exclusive kept).Sublist (exclusive requirements) := hsub.filter _
  have hperm : (exclusive kept).Perm (exclusive requirements) := by
    rw [List.perm_ext_iff_of_nodup (hnd.sublist hsub') hnd]
    intro r
    refine ⟨fun hr => hsub'.subset hr, fun hr => ?_⟩
    obtain ⟨hmem, hd⟩ := mem_exclusive.mp hr
    have hkept : r ∈ kept := by
      by_contra hnot
      rw [hgone r hmem hnot] at hd
      exact absurd hd.symm Bool.false_ne_true
    exact mem_exclusive.mpr ⟨hkept, hd⟩
  exact hsub'.eq_of_length hperm.length_eq

theorem keeps_of_sublist (courses : List Course) (r : Resolved) (c : Course) :
    Keeps kept courses r c ↔ Keeps requirements courses r c := by
  unfold Keeps
  cases hd : r.doubleCounting with
  | true => simp
  | false => rw [← wins_exclusive hd, exclusive_of_sublist hids hsub hgone, wins_exclusive hd]

/-- **Requirements that share their courses are transparent.**  Without some of them, every other
requirement has the same courses in both graphs; and such a requirement has the same courses in
one graph as in the other. -/
theorem of_sublist_requirements (courses : List Course) :
    let a := Allocation.of requirements courses
    let a' := Allocation.of kept courses
    (∀ r ∈ kept, a'.safe.coursesOf r.id = a.safe.coursesOf r.id ∧
      a'.dangerous.coursesOf r.id = a.dangerous.coursesOf r.id) ∧
    ∀ r ∈ requirements, r.doubleCounting = true →
      a.safe.coursesOf r.id = a.dangerous.coursesOf r.id := by
  have hids' : (kept.map (·.id)).Nodup := hids.sublist (hsub.map _)
  constructor
  · intro r hr
    have hr' := hsub.subset hr
    have hsafe := filter_safe_congr courses hids' hids hr hr' (fun _ => true)
      fun c _ _ => keeps_of_sublist hids hsub hgone courses r c
    rw [List.filter_true, List.filter_true] at hsafe
    exact ⟨hsafe, coursesOf_dangerous_congr courses hids' hids hr hr'⟩
  · intro r hr hd
    have hall := filter_coursesOf_eq_of_keeps courses hids hr (fun _ => true)
      fun _ _ _ _ => Or.inl hd
    rwa [List.filter_true, List.filter_true] at hall

end

end Allocation

namespace Sample

/-- a requirement that shares its courses -/
def breadth : Requirement := { requirement "Breadth" [⟨11⟩, ⟨12⟩] with doubleCounting := true }

def withBreadth : List Resolved := breadth.resolveDefault :: requirements

end Sample

namespace Allocation

open Sample

/-- the core requirement gets course 11, whether or not there is a requirement of breadth before it -/
theorem of_sublist_requirements_breadth :
    (withBreadth.map (·.id)).Nodup ∧ requirements.Sublist withBreadth ∧
    (∀ r ∈ withBreadth, r ∉ requirements → r.doubleCounting = true) ∧
    (Allocation.of requirements courses).safe.coursesOf ⟨"Core"⟩
      = (Allocation.of withBreadth courses).safe.coursesOf ⟨"Core"⟩ ∧
    (Allocation.of withBreadth courses).safe.coursesOf ⟨"Breadth"⟩
      = (Allocation.of withBreadth courses).dangerous.coursesOf ⟨"Breadth"⟩ := by
  have hids : (withBreadth.map (·.id)).Nodup := by decide
  have hsub : requirements.Sublist withBreadth := List.sublist_cons_self _ _
  have hgone : ∀ r ∈ withBreadth, r ∉ requirements → r.doubleCounting = true := by
    intro r hr hnot
    rcases List.mem_cons.mp hr with rfl | hr
    · rfl
    · exact absurd hr hnot
  obtain ⟨hkept, hshared⟩ := of_sublist_requirements hids hsub hgone courses
  exact ⟨hids, hsub, hgone, (hkept core.resolveDefault List.mem_cons_self).1,
    hshared breadth.resolveDefault List.mem_cons_self rfl⟩

end Allocation

end DegreeProgress
