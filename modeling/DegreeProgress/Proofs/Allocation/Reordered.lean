import DegreeProgress.Proofs.Allocation.Contest
import DegreeProgress.Proofs.Audit.Slots
import Mathlib.Data.List.Perm.Basic

/-!
# Courses in another order

The rows of a course list may come in any order.  The contest depends only on which rows there are,
so each graph gets the same calls in another order:

* `Allocation.wins_congr`               the contest has the same winners;
* `Allocation.calls_perm`               the calls that make a graph are the same;
* `Allocation.doubleCountedIds_congr`   the edges alone say which identities have a warning;
* `Allocation.of_perm`                  so the graphs have the same edges, and where rows are told
                                        apart by their two identities, every slot has the same
                                        courses.
-/

namespace DegreeProgress

namespace Allocation

open CourseGraph

variable {requirements : List Resolved} {courses courses' : List Course}

/-! ### the contest -/

theorem rivals_map (courses : List Course) (f : Contender → Bool) :
    rivals (requirements.map (Contender.of courses)) f
      = (requirements.zipIdx.filter fun e =>
          !e.1.doubleCounting && f (Contender.of courses e.1)).map (·.2) := by
  unfold rivals
  rw [List.zipIdx_map, List.filter_map, List.map_map]
  rfl

theorem wins_congr
    (hmatched : ∀ r, (Contender.of courses r).matchedIds = (Contender.of courses' r).matchedIds)
    (hforced : ∀ r, (Contender.of courses r).forcedIds = (Contender.of courses' r).forcedIds)
    (i : Nat) (u : UniqueId) :
    wins (requirements.map (Contender.of courses)) i u
      = wins (requirements.map (Contender.of courses')) i u := by
  unfold wins
  simp only [rivals_map, hmatched, hforced]

section
variable (h : courses.Perm courses')
include h

theorem matchedIds_of_perm (r : Resolved) :
    (Contender.of courses r).matchedIds = (Contender.of courses' r).matchedIds := by
  apply SortedSet.eq_of_mem_iff
  intro u
  rw [Contender.mem_matchedIds, Contender.mem_matchedIds]
  unfold Resolved.MatchesId
  simp only [h.mem_iff]

theorem forcedIds_of_perm (r : Resolved) :
    (Contender.of courses r).forcedIds = (Contender.of courses' r).forcedIds := by
  apply SortedSet.eq_of_mem_iff
  intro u
  rw [← SortedSet.contains_iff, ← SortedSet.contains_iff, Contender.contains_forcedIds,
    Contender.contains_forcedIds]
  unfold Resolved.OptsIn
  simp only [h.mem_iff]

theorem keepsSafely_of_perm (i : Nat) (r : Resolved) (x : Candidate) :
    keepsSafely (requirements.map (Contender.of courses)) i (Contender.of courses r) x
      = keepsSafely (requirements.map (Contender.of courses')) i (Contender.of courses' r) x := by
  unfold keepsSafely
  rw [wins_congr (matchedIds_of_perm h) (forcedIds_of_perm h)]
  rfl

end

/-! ### the calls -/

/-- the calls that make a graph -/
def calls (keep : Nat → Contender → Candidate → Bool) (requirements : List Resolved)
    (courses : List Course) : List Connection :=
  (requirements.map (Contender.of courses)).zipIdx.flatMap (connections keep)

theorem records_calls (keep : Nat → Contender → Candidate → Bool) (requirements : List Resolved)
    (courses : List Course) :
    Records (graph (requirements.map (Contender.of courses)) keep)
      (firstPer edgeOf (calls keep requirements courses)) :=
  records_graph keep _

theorem mem_of_mem_calls {keep : Nat → Contender → Candidate → Bool} {x : Connection}
    (h : x ∈ calls keep requirements courses) : x.2 ∈ courses := by
  unfold calls at h
  rw [flatMap_connections] at h
  obtain ⟨⟨r, i⟩, _, h⟩ := List.mem_flatMap.mp h
  rw [connections_of] at h
  obtain ⟨c, hc, rfl⟩ := List.mem_map.mp h
  exact (List.mem_filter.mp hc).1

/-- where rows are told apart by their two identities, a call is known by its edge -/
theorem edgeOf_inj_of_nodup (keep : Nat → Contender → Candidate → Bool)
    (requirements : List Resolved) (hnd : (courses.map Course.identities).Nodup) :
    ∀ x ∈ calls keep requirements courses, ∀ y ∈ calls keep requirements courses,
      edgeOf x = edgeOf y → x = y := by
  intro x hx y hy he
  obtain ⟨hid, hcourse⟩ := (edge_eq_iff x.1 y.1 x.2 y.2).mp he
  have hsame : x.2 = y.2 := List.inj_on_of_nodup_map hnd (mem_of_mem_calls hx)
    (mem_of_mem_calls hy)
    ((x.2.identities_eq_iff y.2).mpr hcourse)
  exact Prod.ext hid hsame

section
variable (h : courses.Perm courses') {keep keep' : Nat → Contender → Candidate → Bool}
  (hkeep : ∀ i r x, keep i (Contender.of courses r) x = keep' i (Contender.of courses' r) x)
include h hkeep

theorem calls_perm (requirements : List Resolved) :
    (calls keep requirements courses).Perm (calls keep' requirements courses') := by
  unfold calls
  rw [flatMap_connections, flatMap_connections]
  apply List.Perm.flatMap_left
  rintro ⟨r, i⟩ _
  rw [connections_of, connections_of]
  -- both lists are asked for the same rows
  simp only [hkeep]
  exact (h.filter _).map _

theorem edges_graph_of_perm (e : Edge) :
    e ∈ (graph (requirements.map (Contender.of courses)) keep).edges
      ↔ e ∈ (graph (requirements.map (Contender.of courses')) keep').edges := by
  rw [(records_calls keep _ _).mem_edges, (records_calls keep' _ _).mem_edges]
  exact ((calls_perm h hkeep requirements).map edgeOf).mem_iff

theorem coursesOf_graph_perm (hnd : (courses.map Course.identities).Nodup) (id : RequirementId) :
    ((graph (requirements.map (Contender.of courses)) keep).coursesOf id).Perm
      ((graph (requirements.map (Contender.of courses')) keep').coursesOf id) := by
  have hlog := firstPer_perm edgeOf (calls_perm h hkeep requirements)
    (edgeOf_inj_of_nodup keep requirements hnd)
  rw [(records_calls keep _ _).courses, (records_calls keep' _ _).courses]
  exact (hlog.filter _).map _

end

/-! ### warnings -/

theorem doubleCountedIds_congr {g g' : CourseGraph} {log log' : List Connection}
    (hg : Records g log) (hg' : Records g' log') (hedges : ∀ e, e ∈ g.edges ↔ e ∈ g'.edges) :
    doubleCountedIds requirements g = doubleCountedIds requirements g' := by
  have hlinked : ∀ u, (g.requirementsOf u).Perm (g'.requirementsOf u) := by
    intro u
    rw [List.perm_ext_iff_of_nodup (hg.nodup_requirementsOf u) (hg'.nodup_requirementsOf u)]
    intro r
    rw [hg.mem_requirementsOf_iff_edges, hg'.mem_requirementsOf_iff_edges]
    simp only [hedges]
  unfold doubleCountedIds
  apply SortedSet.eq_of_mem_iff
  intro u
  rw [SortedSet.mem_ofList, SortedSet.mem_ofList, List.mem_filter, List.mem_filter,
    hg.mem_uniqueIds_iff_edges, hg'.mem_uniqueIds_iff_edges]
  simp only [hedges, (hlinked u).length_eq, (hlinked u).all_eq]

/-! ### the allocation -/

theorem edges_safe_of_perm (h : courses.Perm courses') (e : Edge) :
    e ∈ (Allocation.of requirements courses).safe.edges
      ↔ e ∈ (Allocation.of requirements courses').safe.edges :=
  edges_graph_of_perm h (keepsSafely_of_perm h) e

theorem edges_dangerous_of_perm (h : courses.Perm courses') (e : Edge) :
    e ∈ (Allocation.of requirements courses).dangerous.edges
      ↔ e ∈ (Allocation.of requirements courses').dangerous.edges :=
  edges_graph_of_perm h (fun _ _ _ => rfl) e

theorem doubleCounted_of_perm (h : courses.Perm courses') :
    (Allocation.of requirements courses).doubleCounted
      = (Allocation.of requirements courses').doubleCounted := by
  obtain ⟨log, hlog⟩ := records_dangerous requirements courses
  obtain ⟨log', hlog'⟩ := records_dangerous requirements courses'
  exact doubleCountedIds_congr hlog hlog' (edges_dangerous_of_perm h)

/-- **The order of the courses does not matter to the graphs.**  They have the same edges and the
same warnings, and if rows are told apart by their two identities, every requirement has the same
courses and every slot of it too. -/
theorem of_perm (α : Type) [Amount α] (requirements : List Resolved) (h : courses.Perm courses') :
    let a := Allocation.of requirements courses
    let a' := Allocation.of requirements courses'
    (∀ e, e ∈ a.safe.edges ↔ e ∈ a'.safe.edges) ∧
    (∀ e, e ∈ a.dangerous.edges ↔ e ∈ a'.dangerous.edges) ∧
    a.doubleCounted = a'.doubleCounted ∧
    ((courses.map Course.identities).Nodup → ∀ r : Resolved,
      (a.safe.coursesOf r.id).Perm (a'.safe.coursesOf r.id) ∧
      (a.dangerous.coursesOf r.id).Perm (a'.dangerous.coursesOf r.id) ∧
      List.Forall₂ List.Perm (Statistics.of r (a.safe.coursesOf r.id) : Statistics α).perSlot
        (Statistics.of r (a'.safe.coursesOf r.id) : Statistics α).perSlot ∧
      List.Forall₂ List.Perm (Statistics.of r (a.dangerous.coursesOf r.id) : Statistics α).perSlot
        (Statistics.of r (a'.dangerous.coursesOf r.id) : Statistics α).perSlot) := by
  refine ⟨edges_safe_of_perm h, edges_dangerous_of_perm h, doubleCounted_of_perm h, ?_⟩
  intro hnd r
  have hsafe : ((Allocation.of requirements courses).safe.coursesOf r.id).Perm
      ((Allocation.of requirements courses').safe.coursesOf r.id) :=
    coursesOf_graph_perm h (keepsSafely_of_perm h) hnd r.id
  have hdangerous : ((Allocation.of requirements courses).dangerous.coursesOf r.id).Perm
      ((Allocation.of requirements courses').dangerous.coursesOf r.id) :=
    coursesOf_graph_perm h (fun _ _ _ => rfl) hnd r.id
  exact ⟨hsafe, hdangerous, Statistics.perSlot_of_perm r hsafe,
    Statistics.perSlot_of_perm r hdangerous⟩

/-- two courses for which two requirements contend, in either order -/
theorem of_perm_sample :
    Sample.courses.Perm Sample.courses.reverse ∧ (Sample.courses.map Course.identities).Nodup ∧
    (Allocation.of Sample.requirements Sample.courses).doubleCounted
      = (Allocation.of Sample.requirements Sample.courses.reverse).doubleCounted ∧
    ((Allocation.of Sample.requirements Sample.courses).dangerous.coursesOf ⟨"Elective"⟩).Perm
      ((Allocation.of Sample.requirements Sample.courses.reverse).dangerous.coursesOf
        ⟨"Elective"⟩) := by
  have h : Sample.courses.Perm Sample.courses.reverse := (List.reverse_perm _).symm
  have hnd : (Sample.courses.map Course.identities).Nodup := by decide
  obtain ⟨_, _, hwarn, hcourses⟩ := of_perm Rat Sample.requirements h
  exact ⟨h, hnd, hwarn, (hcourses hnd Sample.elective.resolveDefault).2.1⟩

end Allocation

end DegreeProgress
