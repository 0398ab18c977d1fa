import DegreeProgress.Proofs.Allocation.Reordered
import DegreeProgress.Proofs.Audit.CountedOnce
import DegreeProgress.Proofs.Course.Respelled
import DegreeProgress.Proofs.Student.Exams

/-!
# Plans with their codes respelled

Every code of a course list may be written with other blanks and in other letter case.  The slots
take the same rows, so each graph gets the calls for the same edges in the same order:

* `Resolved.isCandidate_respelled`   a requirement could use the same rows;
* `Contender.ids_respelled`          it contends for the same identities;
* `Allocation.map_edgeOf_calls`      the graphs are made with the same edges,
* `Audit.sameEdges_of_respelled`     and have the same warnings.
-/

namespace DegreeProgress

/-- the edges of both graphs and the warnings are the same -/
structure Allocation.SameEdges (a a' : Allocation) : Prop where
  safe : a.safe.edges = a'.safe.edges
  dangerous : a.dangerous.edges = a'.dangerous.edges
  doubleCounted : a.doubleCounted = a'.doubleCounted

/-- the two students differ in how the codes of their plans are spelled only -/
structure Student.Respelled (s s' : Student) : Prop where
  planned : List.Forall₂ Course.Respelled s.planned s'.planned
  profile : s.profile = s'.profile
  choices : s.choices = s'.choices
  overrides : s.overrides = s'.overrides

/-! ### one row -/

namespace Resolved

variable (r : Resolved) {c c' : Course} (h : c.Respelled c')
include h

theorem isCandidate_respelled : r.isCandidate c = r.isCandidate c' := by
  have htakes : r.takes c = r.takes c' := by
    unfold takes
    simp only [fun checker => Checker.accepts_congr checker h.courseId h.code]
  unfold isCandidate
  rw [htakes, h.courseId]

end Resolved

/-! ### course lists -/

section
variable {courses courses' : List Course} (h : List.Forall₂ Course.Respelled courses courses')
include h

theorem Contender.ids_respelled (r : Resolved) (forced : Bool) :
    ((r.candidates courses).filter (·.forced == forced)).map (·.course.uniqueId)
      = ((r.candidates courses').filter (·.forced == forced)).map (·.course.uniqueId) := by
  rw [ids_eq, ids_eq]
  refine map_filter_of_forall₂ h (fun c c' hc => ?_) fun c c' hc => hc.uniqueId
  rw [r.isCandidate_respelled hc, hc.courseId]

namespace Allocation

open CourseGraph

variable {requirements : List Resolved}

theorem wins_respelled (i : Nat) (u : UniqueId) :
    wins (requirements.map (Contender.of courses)) i u
      = wins (requirements.map (Contender.of courses')) i u :=
  wins_congr (fun r => congrArg SortedSet.ofList (Contender.ids_respelled h r false))
    (fun r => congrArg SortedSet.ofList (Contender.ids_respelled h r true)) i u

theorem keepsSafely_respelled (i : Nat) (r : Resolved) {c c' : Course} (hc : c.Respelled c') :
    keepsSafely (requirements.map (Contender.of courses)) i (Contender.of courses r)
        ⟨c, r.isOptedIn c.courseId⟩
      = keepsSafely (requirements.map (Contender.of courses')) i (Contender.of courses' r)
        ⟨c', r.isOptedIn c'.courseId⟩ := by
  unfold keepsSafely
  rw [wins_respelled h, hc.uniqueId, hc.courseId]
  rfl

section
variable {keep keep' : Nat → Contender → Candidate → Bool}
  (hkeep : ∀ i r c c', c.Respelled c' →
    keep i (Contender.of courses r) ⟨c, r.isOptedIn c.courseId⟩
      = keep' i (Contender.of courses' r) ⟨c', r.isOptedIn c'.courseId⟩)
include hkeep

theorem map_edgeOf_calls : (calls keep requirements courses).map edgeOf
    = (calls keep' requirements courses').map edgeOf := by
  unfold calls
  rw [flatMap_connections, flatMap_connections, List.map_flatMap, List.map_flatMap]
  congr 1
  funext e
  rw [connections_of, connections_of, List.map_map, List.map_map]
  refine map_filter_of_forall₂ h (fun c c' hc => ?_) fun c c' hc => ?_
  · rw [e.1.isCandidate_respelled hc, hkeep e.2 e.1 c c' hc]
  · exact (edge_eq_iff ..).mpr ⟨rfl, hc.uniqueId, hc.courseId⟩

theorem edges_graph_respelled : (graph (requirements.map (Contender.of courses)) keep).edges
    = (graph (requirements.map (Contender.of courses')) keep').edges := by
  rw [(records_calls keep _ _).edges, (records_calls keep' _ _).edges]
  have hfirst : ∀ log : List Connection,
      (firstPer edgeOf log).map edgeOf = firstPer id (log.map edgeOf) := fun log =>
    (firstPer_map id edgeOf log).symm
  rw [hfirst, hfirst, map_edgeOf_calls h hkeep]

end

theorem sameEdges_respelled (requirements : List Resolved) :
    SameEdges (Allocation.of requirements courses) (Allocation.of requirements courses') := by
  have hdangerous : (Allocation.of requirements courses).dangerous.edges
      = (Allocation.of requirements courses').dangerous.edges :=
    edges_graph_respelled h fun _ _ _ _ _ => rfl
  obtain ⟨log, hlog⟩ := records_dangerous requirements courses
  obtain ⟨log', hlog'⟩ := records_dangerous requirements courses'
  refine ⟨edges_graph_respelled h fun i r _ _ => keepsSafely_respelled h i r, hdangerous, ?_⟩
  exact doubleCountedIds_congr hlog hlog' fun e => hdangerous ▸ Iff.rfl

end Allocation

end

/-! ### students -/

theorem Student.courses_respelled {s s' : Student} (h : s.Respelled s') (table : ExamTable) :
    List.Forall₂ Course.Respelled (s.courses table) (s'.courses table) := by
  have hexams : List.Forall₂ Course.Respelled
      (table.convert s.profile.college s.profile.majors s.profile.exams)
      (table.convert s'.profile.college s'.profile.majors s'.profile.exams) := by
    rw [h.profile]
    exact List.forall₂_same.mpr fun c _ => ⟨rfl, rfl, sameWords_iff.mpr rfl⟩
  exact List.rel_append h.planned hexams

namespace Sample

/-- the code of `systems` in lower case and with more blanks -/
def systemsRespelled : PlannedCourse := { systems with code := "\tcs  4999" }

theorem researcher_respelled :
    (researcher [systems, research]).Respelled (researcher [systemsRespelled, research]) :=
  ⟨by decide, rfl, rfl, rfl⟩

end Sample

namespace Audit

open Sample

/-- **Letter case and blanks in codes do not matter.**  A checker takes the same courses; and with
the codes of a course list or of a plan respelled, both graphs have the same edges and the same
identities have a warning. -/
theorem sameEdges_of_respelled :
    (∀ (r : Checker) (c c' : Course), c.courseId = c'.courseId → SameWords c.code c'.code →
      r.accepts c = r.accepts c') ∧
    (∀ (requirements : List Resolved) (courses courses' : List Course),
      List.Forall₂ Course.Respelled courses courses' →
      Allocation.SameEdges (.of requirements courses) (.of requirements courses')) ∧
    ∀ (α : Type) [Amount α] (options : AuditOptions) (catalog : Catalog) (table : ExamTable)
      (s s' : Student), s.Respelled s' →
      Allocation.SameEdges (run α options catalog table s).allocation
        (run α options catalog table s').allocation := by
  refine ⟨fun r _ _ => r.accepts_congr, fun requirements _ _ h =>
    Allocation.sameEdges_respelled h requirements, ?_⟩
  intro α _ options catalog table s s' h
  rw [allocation_run, allocation_run, h.profile, h.choices, h.overrides]
  exact Allocation.sameEdges_respelled (s.courses_respelled h table) _

/-- a plan that two requirements contend for, one of them by a code -/
theorem sameEdges_of_respelled_researcher : ∃ catalog, Catalog.compile crossListed = .ok catalog ∧
    (.leaf (.minLevel 1) : Checker).accepts (Sample.course 11) = true ∧
    (.leaf (.minLevel 1) : Checker).accepts { Sample.course 11 with code := "cs\t1110 " } = true ∧
    (researcher [systems, research]).Respelled (researcher [systemsRespelled, research]) ∧
    (run Rat default catalog default
      (researcher [systems, research])).allocation.doubleCounted = .ofList [.numeric 1] ∧
    Allocation.SameEdges
      (.of (catalog.resolve (researcher []).profile {} {}) (researcher [systems, research]).planned)
      (.of (catalog.resolve (researcher []).profile {} {})
        (researcher [systemsRespelled, research]).planned) ∧
    Allocation.SameEdges
      (run Rat default catalog default (researcher [systems, research])).allocation
      (run Rat default catalog default (researcher [systemsRespelled, research])).allocation := by
  have hwarned : ∃ catalog, Catalog.compile crossListed = .ok catalog ∧
      (run Rat default catalog default
        (researcher [systems, research])).allocation.doubleCounted = .ofList [.numeric 1] :=
    exists_ok_of_any (by decide +kernel)
  obtain ⟨catalog, hcatalog, hwarned⟩ := hwarned
  obtain ⟨hchecker, hcourses, hrun⟩ := sameEdges_of_respelled
  have haccepts : (.leaf (.minLevel 1) : Checker).accepts (Sample.course 11) = true := by decide
  have hsame := hchecker (.leaf (.minLevel 1)) (Sample.course 11)
    { Sample.course 11 with code := "cs\t1110 " } rfl (by decide)
  exact ⟨catalog, hcatalog, haccepts, hsame.symm.trans haccepts, researcher_respelled, hwarned,
    hcourses _ _ _ researcher_respelled.planned, hrun Rat _ _ _ _ _ researcher_respelled⟩

end Audit

end DegreeProgress
