import DegreeProgress.Proofs.Allocation.Shared
import Mathlib.Data.List.Perm.Basic

/-!
# Requirements in another order

The order of the requirements enters the contest only as a tie-break, where several of them match an
identity and nothing else.

* `Allocation.wins_iff_of_untied`     without a tie, who wins is said without any order;
* `Allocation.filter_safe_congr`      a requirement that keeps the same candidates in two runs has
                                      the same courses;
* `Allocation.of_perm_requirements`   so requirements in another order get the same courses, but for
                                      tied identities in the safe graph.
-/

namespace DegreeProgress

namespace Allocation

/-! ### ties -/

/-- at most one of the requirements that do not share their courses matches the identity and nothing
else -/
def Untied (requirements : List Resolved) (courses : List Course) (u : UniqueId) : Prop :=
  ∀ r ∈ requirements, ∀ r' ∈ requirements, r.doubleCounting = false → r'.doubleCounting = false →
    r.MatchesOnly courses u → r'.MatchesOnly courses u → r = r'

section
variable {requirements : List Resolved} {courses : List Course} {u : UniqueId}
  (huntied : Untied requirements courses u)
include huntied

theorem firstDedicated_iff_of_untied {r : Resolved} (hr : r ∈ requirements)
    (hd : r.doubleCounting = false) :
    FirstDedicated requirements courses r u ↔ r.MatchesOnly courses u := by
  constructor
  · rintro ⟨_, _, _, honly, _⟩
    exact honly
  · intro honly
    obtain ⟨before, after, hsplit, hnew⟩ := List.eq_append_cons_of_mem hr
    refine ⟨before, after, hsplit, honly, ?_⟩
    intro r' hr' hd' honly'
    have hmem : r' ∈ requirements := hsplit ▸ List.mem_append_left _ hr'
    have hsame : r' = r := huntied r' hmem r hr hd' hd honly' honly
    exact hnew (hsame ▸ hr')

theorem wins_iff_of_untied {r : Resolved} (hr : r ∈ requirements) (hd : r.doubleCounting = false) :
    Wins requirements courses r u ↔
      (∀ r' ∈ requirements, r'.doubleCounting = false → r'.OptsIn courses u → r' = r) ∧
      ((∀ r' ∈ requirements, r'.doubleCounting = false → r'.MatchesId courses u → r' = r) ∨
        r.MatchesOnly courses u) := by
  rw [← firstDedicated_iff_of_untied huntied hr hd]
  exact ⟨fun h => ⟨h.unclaimed, h.preferred⟩, fun h => ⟨h.1, h.2⟩⟩

variable {requirements' : List Resolved} (h : requirements.Perm requirements')
include h

theorem Untied.perm : Untied requirements' courses u := by
  intro r hr r' hr'
  exact huntied r (h.mem_iff.mpr hr) r' (h.mem_iff.mpr hr')

theorem keeps_of_perm_of_untied {r : Resolved} (hr : r ∈ requirements) {c : Course}
    (hu : c.uniqueId = u) : Keeps requirements courses r c ↔ Keeps requirements' courses r c := by
  unfold Keeps
  cases hd : r.doubleCounting with
  | true => simp
  | false =>
    rw [hu, wins_iff_of_untied huntied hr hd,
      wins_iff_of_untied (huntied.perm h) (h.mem_iff.mp hr) hd]
    simp only [h.mem_iff]

end

/-! ### two runs -/

section
variable {requirements requirements' : List Resolved} (courses : List Course)
  (hids : (requirements.map (·.id)).Nodup) (hids' : (requirements'.map (·.id)).Nodup)
  {r : Resolved} (hr : r ∈ requirements) (hr' : r ∈ requirements')
include hids hids' hr hr'

theorem coursesOf_dangerous_congr :
    (Allocation.of requirements courses).dangerous.coursesOf r.id
      = (Allocation.of requirements' courses).dangerous.coursesOf r.id := by
  rw [coursesOf_dangerous courses hids hr, coursesOf_dangerous courses hids' hr']

theorem filter_safe_congr (p : Course → Bool)
    (h : ∀ c ∈ courses, p c = true →
      (Keeps requirements courses r c ↔ Keeps requirements' courses r c)) :
    ((Allocation.of requirements courses).safe.coursesOf r.id).filter p
      = ((Allocation.of requirements' courses).safe.coursesOf r.id).filter p := by
  obtain ⟨keep, hkeep, heq⟩ := coursesOf_safe courses hids hr
  obtain ⟨keep', hkeep', heq'⟩ := coursesOf_safe courses hids' hr'
  rw [heq, heq', ← coursesOf_dangerous_congr courses hids hids' hr hr', List.filter_filter,
    List.filter_filter]
  apply List.filter_congr
  intro c hc
  obtain ⟨hmem, hcand⟩ := mem_dangerous courses hids hr hc
  cases hp : p c with
  | false => rfl
  | true =>
    have hsame : keep c = keep' c := by
      rw [Bool.eq_iff_iff, hkeep c hmem hcand, hkeep' c hmem hcand]
      exact h c hmem hp
    rw [hsame]

end

/-! ### another order -/

section
variable {requirements requirements' : List Resolved} (hids : (requirements.map (·.id)).Nodup)
  (h : requirements.Perm requirements')
include hids h

theorem mem_doubleCounted_of_perm (courses : List Course) {u : UniqueId}
    (hu : u ∈ (Allocation.of requirements courses).doubleCounted) :
    u ∈ (Allocation.of requirements' courses).doubleCounted := by
  have hids' : (requirements'.map (·.id)).Nodup := (h.map _).nodup_iff.mp hids
  obtain ⟨⟨r₁, hr₁, r₂, hr₂, hne, hu₁, hu₂⟩, r, hr, hu, hd⟩ :=
    two_of_mem_doubleCounted courses hids hu
  have hother : ∃ r' ∈ requirements, r ≠ r' ∧ r'.Uses courses u := by
    by_cases hrr : r = r₁
    · exact ⟨r₂, hr₂, hrr ▸ hne, hu₂⟩
    · exact ⟨r₁, hr₁, hrr, hu₁⟩
  obtain ⟨r', hr', hne', hu'⟩ := hother
  exact mem_doubleCounted_of_two courses hids' (h.mem_iff.mp hr) (h.mem_iff.mp hr') hne' hd hu hu'

/-- **The order of the requirements matters only to ties.**  The dangerous graph and the warnings do
not depend on it, and in the safe graph a requirement has the same rows of every identity that is
not tied. -/
theorem of_perm_requirements (courses : List Course) :
    let a := Allocation.of requirements courses
    let a' := Allocation.of requirements' courses
    (∀ r ∈ requirements, a.dangerous.coursesOf r.id = a'.dangerous.coursesOf r.id) ∧
    a.doubleCounted = a'.doubleCounted ∧
    ∀ u, Untied requirements courses u → ∀ r ∈ requirements,
      (a.safe.coursesOf r.id).filter (fun c => c.uniqueId = u)
        = (a'.safe.coursesOf r.id).filter fun c => c.uniqueId = u := by
  have hids' : (requirements'.map (·.id)).Nodup := (h.map _).nodup_iff.mp hids
  refine ⟨?_, ?_, ?_⟩
  · intro r hr
    exact coursesOf_dangerous_congr courses hids hids' hr (h.mem_iff.mp hr)
  · apply SortedSet.eq_of_mem_iff
    intro u
    exact ⟨mem_doubleCounted_of_perm hids h courses, mem_doubleCounted_of_perm hids' h.symm courses⟩
  · intro u huntied r hr
    apply filter_safe_congr courses hids hids' hr (h.mem_iff.mp hr)
    intro c _ hu
    exact keeps_of_perm_of_untied huntied h hr (of_decide_eq_true hu)

end

/-- the elective matches course 12 too, so only the core requirement is dedicated to course 11 -/
theorem of_perm_requirements_sample :
    (Sample.requirements.map (·.id)).Nodup ∧
    Sample.requirements.Perm Sample.requirements.reverse ∧
    Untied Sample.requirements Sample.courses (.numeric 11) ∧
    ((Allocation.of Sample.requirements Sample.courses).safe.coursesOf ⟨"Core"⟩).filter
        (fun c => c.uniqueId = .numeric 11)
      = ((Allocation.of Sample.requirements.reverse Sample.courses).safe.coursesOf ⟨"Core"⟩).filter
        fun c => c.uniqueId = .numeric 11 := by
  have hids : (Sample.requirements.map (·.id)).Nodup := by decide
  have h : Sample.requirements.Perm Sample.requirements.reverse := (List.reverse_perm _).symm
  have hcore : ∀ r ∈ Sample.requirements, r.MatchesOnly Sample.courses (.numeric 11) →
      r = Sample.core.resolveDefault := by
    intro r hr honly
    rcases List.mem_cons.mp hr with rfl | hr
    · rfl
    · have helective := List.mem_singleton.mp hr
      subst helective
      have h12 := honly.2 (Sample.course 12) (List.mem_cons_of_mem _ List.mem_cons_self) (by decide)
      exact absurd h12 (by decide)
  have huntied : Untied Sample.requirements Sample.courses (.numeric 11) :=
    fun r hr r' hr' _ _ honly honly' => (hcore r hr honly).trans (hcore r' hr' honly').symm
  obtain ⟨_, _, hsafe⟩ := of_perm_requirements hids h Sample.courses
  exact ⟨hids, h, huntied, hsafe _ huntied Sample.core.resolveDefault List.mem_cons_self⟩

end Allocation

namespace Sample

/-- matches course 11 only, as the core requirement does -/
def colloquium : Requirement := requirement "Colloquium" [⟨11⟩]

end Sample

/-- a tied course goes to the requirement that comes first -/
example :
    let tied := [Sample.core.resolveDefault, Sample.colloquium.resolveDefault]
    (Allocation.of tied Sample.courses).safe.edges = [⟨⟨"Core"⟩, .numeric 11, ⟨11⟩⟩] ∧
    (Allocation.of tied.reverse Sample.courses).safe.edges
      = [⟨⟨"Colloquium"⟩, .numeric 11, ⟨11⟩⟩] := by decide +kernel

end DegreeProgress
