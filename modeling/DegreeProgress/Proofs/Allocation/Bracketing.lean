import DegreeProgress.Proofs.Allocation.Contest
import Mathlib.Data.Set.Basic

/-!
# The two graphs bracket every legal choice

A link is a requirement with a row that it could use.  A set of links is legal (`Legal`) when the
links that are not made by hand give an identity to at most one of the requirements that do not
share their courses, and to none but the one that has the identity by hand.

`safe_legal_of_legal_covered` says that the safe graph is such a choice, and that the dangerous
graph contains them all.
-/

namespace DegreeProgress

namespace Allocation

/-- a requirement and a row for it -/
abbrev Link : Type := Resolved × Course

/-- the links of a graph -/
def links (requirements : List Resolved) (g : CourseGraph) : Set Link :=
  {e | e.1 ∈ requirements ∧ e.2 ∈ g.coursesOf e.1.id}

/-- a link that takes its course from others: it is not made by hand, and the requirement does not
share its courses -/
def Takes (e : Link) : Prop := e.1.doubleCounting = false ∧ e.1.isOptedIn e.2.courseId = false

/-- no identity is given away twice -/
structure Legal (requirements : List Resolved) (courses : List Course) (s : Set Link) : Prop where
  candidate : ∀ e ∈ s, e.1 ∈ requirements ∧ e.2 ∈ courses ∧ e.1.isCandidate e.2 = true
  exclusive : ∀ e ∈ s, ∀ e' ∈ s, Takes e → Takes e' → e.2.uniqueId = e'.2.uniqueId → e.1 = e'.1
  claimed : ∀ e ∈ s, Takes e → ∀ r ∈ requirements, r.doubleCounting = false →
    r.OptsIn courses e.2.uniqueId → e.1 = r

/-! ### one winner -/

section
variable {requirements : List Resolved} {courses : List Course} {r r' : Resolved} {u : UniqueId}

theorem FirstDedicated.unique (h : FirstDedicated requirements courses r u)
    (h' : FirstDedicated requirements courses r' u) (hd : r.doubleCounting = false)
    (hd' : r'.doubleCounting = false) : r = r' := by
  obtain ⟨before, after, hsplit, honly, hfirst⟩ := h
  obtain ⟨before', after', hsplit', honly', hfirst'⟩ := h'
  rw [hsplit] at hsplit'
  rcases List.append_eq_append_iff.mp hsplit' with ⟨t, hb, ht⟩ | ⟨t, hb, ht⟩
  · cases t with
    | nil => exact (List.cons.inj ht).1
    | cons x xs =>
      have hx : r = x := (List.cons.inj ht).1
      have hmem : r ∈ before' := by
        rw [hb, hx]
        exact List.mem_append_right _ List.mem_cons_self
      exact absurd honly (hfirst' r hmem hd)
  · cases t with
    | nil => exact (List.cons.inj ht).1.symm
    | cons x xs =>
      have hx : r' = x := (List.cons.inj ht).1
      have hmem : r' ∈ before := by
        rw [hb, hx]
        exact List.mem_append_right _ List.mem_cons_self
      exact absurd honly' (hfirst r' hmem hd')

/-- two requirements that match an identity do not both win it -/
theorem Wins.unique (h : Wins requirements courses r u) (h' : Wins requirements courses r' u)
    (hr : r ∈ requirements) (hr' : r' ∈ requirements) (hd : r.doubleCounting = false)
    (hd' : r'.doubleCounting = false) (hu : r.MatchesId courses u)
    (hu' : r'.MatchesId courses u) : r = r' := by
  rcases h.preferred with hsole | hfirst
  · exact (hsole r' hr' hd' hu').symm
  · rcases h'.preferred with hsole' | hfirst'
    · exact hsole' r hr hd hu
    · exact hfirst.unique hfirst' hd hd'

end

/-! ### the safe graph is legal -/

section
variable {requirements : List Resolved} {courses : List Course}
  (hids : (requirements.map (·.id)).Nodup)
include hids

theorem wins_of_takes {e : Link}
    (he : e ∈ links requirements (Allocation.of requirements courses).safe) (ht : Takes e) :
    Wins requirements courses e.1 e.2.uniqueId ∧ e.1.MatchesId courses e.2.uniqueId := by
  obtain ⟨hr, hc⟩ := he
  obtain ⟨hd, hin⟩ := ht
  obtain ⟨hdang, hkeep⟩ := (mem_safe courses hids hr e.2).mp hc
  obtain ⟨hmem, hcand⟩ := mem_dangerous courses hids hr hdang
  refine ⟨?_, e.2, hmem, rfl, Resolved.isMatched_of_isCandidate hcand hin⟩
  rcases hkeep with h | h | h
  · rw [hd] at h
    exact absurd h Bool.false_ne_true
  · rw [hin] at h
    exact absurd h Bool.false_ne_true
  · exact h

theorem legal_safe :
    Legal requirements courses (links requirements (Allocation.of requirements courses).safe) where
  candidate e he := by
    obtain ⟨hr, hc⟩ := he
    exact ⟨hr, mem_dangerous courses hids hr ((mem_safe courses hids hr e.2).mp hc).1⟩
  exclusive e he e' he' ht ht' hu := by
    obtain ⟨hw, hm⟩ := wins_of_takes hids he ht
    obtain ⟨hw', hm'⟩ := wins_of_takes hids he' ht'
    rw [← hu] at hw' hm'
    exact hw.unique hw' he.1 he'.1 ht.1 ht'.1 hm hm'
  claimed e he ht r hr hd hin := ((wins_of_takes hids he ht).1.unclaimed r hr hd hin).symm

theorem containsEdge_dangerous {e : Link} (hr : e.1 ∈ requirements) (hc : e.2 ∈ courses)
    (hcand : e.1.isCandidate e.2 = true) :
    (Allocation.of requirements courses).dangerous.containsEdge e.1.id e.2 = true := by
  obtain ⟨log, hlog⟩ := records_dangerous requirements courses
  rw [hlog.containsEdge_iff_coursesOf]
  exact identities_mem_dangerous courses hids hr hc hcand

/-- where one requirement at most has an identity by hand, only one of those that do not share
their courses gets it for sure -/
theorem eq_of_safe_of_one_claim {u : UniqueId}
    (hone : ∀ r ∈ requirements, ∀ r' ∈ requirements, r.doubleCounting = false →
      r'.doubleCounting = false → r.OptsIn courses u → r'.OptsIn courses u → r = r')
    {e e' : Link} (he : e ∈ links requirements (Allocation.of requirements courses).safe)
    (he' : e' ∈ links requirements (Allocation.of requirements courses).safe)
    (hd : e.1.doubleCounting = false) (hd' : e'.1.doubleCounting = false)
    (hu : e.2.uniqueId = u) (hu' : e'.2.uniqueId = u) : e.1 = e'.1 := by
  have hlegal : Legal requirements courses
      (links requirements (Allocation.of requirements courses).safe) := legal_safe hids
  obtain ⟨hr, hc, _⟩ := hlegal.candidate e he
  obtain ⟨hr', hc', _⟩ := hlegal.candidate e' he'
  cases hin : e.1.isOptedIn e.2.courseId with
  | true =>
    have hopt : e.1.OptsIn courses u := ⟨e.2, hc, hu, hin⟩
    cases hin' : e'.1.isOptedIn e'.2.courseId with
    | true => exact hone e.1 hr e'.1 hr' hd hd' hopt ⟨e'.2, hc', hu', hin'⟩
    | false =>
      rw [← hu'] at hopt
      exact (hlegal.claimed e' he' ⟨hd', hin'⟩ e.1 hr hd hopt).symm
  | false =>
    cases hin' : e'.1.isOptedIn e'.2.courseId with
    | true =>
      have hopt' : e'.1.OptsIn courses u := ⟨e'.2, hc', hu', hin'⟩
      rw [← hu] at hopt'
      exact hlegal.claimed e he ⟨hd, hin⟩ e'.1 hr' hd' hopt'
    | false => exact hlegal.exclusive e he e' he' ⟨hd, hin⟩ ⟨hd', hin'⟩ (hu.trans hu'.symm)

/-- **Bracketing.**  The safe courses of a requirement are among its dangerous ones, in order; the
safe graph is a legal choice; every legal choice is part of the dangerous graph; and an identity
that at most one requirement has by hand goes, in the safe graph, to at most one of those that do
not share their courses. -/
theorem safe_legal_of_legal_covered :
    (∀ id, ((Allocation.of requirements courses).safe.coursesOf id).Sublist
      ((Allocation.of requirements courses).dangerous.coursesOf id)) ∧
    Legal requirements courses (links requirements (Allocation.of requirements courses).safe) ∧
    (∀ s, Legal requirements courses s → ∀ e ∈ s,
      (Allocation.of requirements courses).dangerous.containsEdge e.1.id e.2 = true) ∧
    (∀ u, (∀ r ∈ requirements, ∀ r' ∈ requirements, r.doubleCounting = false →
        r'.doubleCounting = false → r.OptsIn courses u → r'.OptsIn courses u → r = r') →
      ∀ e ∈ links requirements (Allocation.of requirements courses).safe,
      ∀ e' ∈ links requirements (Allocation.of requirements courses).safe,
        e.1.doubleCounting = false → e'.1.doubleCounting = false → e.2.uniqueId = u →
        e'.2.uniqueId = u → e.1 = e'.1) := by
  refine ⟨coursesOf_safe_sublist courses hids, legal_safe hids, ?_, ?_⟩
  · intro s hs e he
    obtain ⟨hr, hc, hcand⟩ := hs.candidate e he
    exact containsEdge_dangerous hids hr hc hcand
  · intro u hone e he e' he' hd hd' hu hu'
    exact eq_of_safe_of_one_claim hids hone he he' hd hd' hu hu'

end

/-- the bracket around a course that two requirements match -/
theorem safe_legal_of_legal_covered_sample :
    (Sample.requirements.map (·.id)).Nodup ∧
    Legal Sample.requirements Sample.courses
      (links Sample.requirements (Allocation.of Sample.requirements Sample.courses).safe) := by
  have hids : (Sample.requirements.map (·.id)).Nodup := by decide
  exact ⟨hids, (safe_legal_of_legal_covered hids).2.1⟩

end Allocation

end DegreeProgress
