import DegreeProgress.Proofs.Allocation.Candidates
import DegreeProgress.Proofs.Graph.Log

/-!
# The courses of the two graphs

Both graphs are made by the same calls, contender by contender; they differ in which candidates
are let through.  For requirements with ids of their own, the courses of each requirement are read
off row by row:

* `Allocation.records_graph`        a graph is the log of the calls that made it;
* `Allocation.coursesOf_graph`      the courses of a requirement: its candidates that are let
                                    through, the first row for every pair of identities;
* `Allocation.coursesOf_dangerous`  the dangerous graph: all candidates.
-/

namespace DegreeProgress

/-- a part of a list of parts, found again by a property of its elements -/
theorem filter_flatMap_eq {ι β : Type} (parts : List ι) (f : ι → List β) (p : β → Bool) (a : ι)
    (ha : a ∈ parts) (hnd : parts.Nodup) (hp : ∀ b ∈ f a, p b = true)
    (hn : ∀ x ∈ parts, x ≠ a → ∀ b ∈ f x, p b = false) : (parts.flatMap f).filter p = f a := by
  induction parts with
  | nil => exact absurd ha List.not_mem_nil
  | cons x xs ih =>
    obtain ⟨hx, hxs⟩ := List.nodup_cons.mp hnd
    rw [List.flatMap_cons, List.filter_append]
    by_cases h : x = a
    · subst h
      have hrest : (xs.flatMap f).filter p = [] := by
        rw [List.filter_eq_nil_iff]
        intro b hb
        obtain ⟨y, hy, hby⟩ := List.mem_flatMap.mp hb
        rw [hn y (List.mem_cons_of_mem x hy) (fun e => hx (e ▸ hy)) b hby]
        exact Bool.false_ne_true
      rw [List.filter_eq_self.mpr hp, hrest, List.append_nil]
    · have hhead : (f x).filter p = [] := by
        rw [List.filter_eq_nil_iff]
        intro b hb
        rw [hn x List.mem_cons_self h b hb]
        exact Bool.false_ne_true
      rw [hhead, List.nil_append]
      exact ih ((List.mem_cons.mp ha).resolve_left (Ne.symm h)) hxs
        fun y hy => hn y (List.mem_cons_of_mem x hy)

namespace Allocation

open CourseGraph

section
variable (keep : Nat → Contender → Candidate → Bool)

/-- the calls that a graph gets for the contender at an index -/
def connections (e : Contender × Nat) : List Connection :=
  (e.1.candidates.filter (keep e.2 e.1)).map fun x => (e.1.requirement.id, x.course)

/-- the calls made for one contender -/
def connect (g : CourseGraph) (e : Contender × Nat) : CourseGraph :=
  (connections keep e).foldl (fun g e => g.addEdge e.1 e.2) (g.addRequirement e.1.requirement.id)

theorem graph_eq_foldl_connect (contenders : List Contender) :
    graph contenders keep = contenders.zipIdx.foldl (connect keep) .empty := by
  unfold graph
  congr 1
  funext g e
  unfold connect connections
  rw [List.foldl_map]

theorem records_connect {g : CourseGraph} {calls : List Connection} (e : Contender × Nat)
    (h : Records g (firstPer edgeOf calls)) :
    Records (connect keep g e) (firstPer edgeOf (calls ++ connections keep e)) :=
  (h.addRequirement e.1.requirement.id).connectAll calls (connections keep e)

theorem records_foldl_connect (l : List (Contender × Nat)) {g : CourseGraph}
    {calls : List Connection} (h : Records g (firstPer edgeOf calls)) :
    Records (l.foldl (connect keep) g)
      (firstPer edgeOf (calls ++ l.flatMap (connections keep))) := by
  induction l generalizing g calls with
  | nil =>
    rw [List.flatMap_nil, List.append_nil]
    exact h
  | cons e l ih =>
    rw [List.foldl_cons, List.flatMap_cons, ← List.append_assoc]
    exact ih (records_connect keep e h)

theorem records_graph (contenders : List Contender) : Records (graph contenders keep)
    (firstPer edgeOf (contenders.zipIdx.flatMap (connections keep))) := by
  have hempty : Records CourseGraph.empty (firstPer edgeOf []) := Records.empty
  rw [graph_eq_foldl_connect]
  exact records_foldl_connect keep contenders.zipIdx hempty

theorem records_safe (requirements : List Resolved) (courses : List Course) : ∃ log,
    Records (Allocation.of requirements courses).safe log :=
  ⟨_, records_graph (keepsSafely (requirements.map (Contender.of courses))) _⟩

theorem records_dangerous (requirements : List Resolved) (courses : List Course) : ∃ log,
    Records (Allocation.of requirements courses).dangerous log :=
  ⟨_, records_graph (fun _ _ _ => true) (requirements.map (Contender.of courses))⟩

variable {requirements : List Resolved} (courses : List Course)

theorem connections_of (r : Resolved) (i : Nat) :
    connections keep (Contender.of courses r, i)
      = (courses.filter fun c => r.isCandidate c
            && keep i (Contender.of courses r) ⟨c, r.isOptedIn c.courseId⟩).map
          fun c => (r.id, c) := by
  rw [← r.map_course_candidates courses (keep i (Contender.of courses r)), List.map_map]
  rfl

theorem flatMap_connections (requirements : List Resolved) :
    (requirements.map (Contender.of courses)).zipIdx.flatMap (connections keep)
      = requirements.zipIdx.flatMap fun e => connections keep (Contender.of courses e.1, e.2) := by
  rw [List.zipIdx_map, List.flatMap_map]
  rfl

theorem fst_of_mem_connections {r : Resolved} {i : Nat} {e : Connection}
    (h : e ∈ connections keep (Contender.of courses r, i)) : e.1 = r.id := by
  rw [connections_of, List.mem_map] at h
  obtain ⟨c, _, rfl⟩ := h
  rfl

theorem index_unique (hids : (requirements.map (·.id)).Nodup) {r r' : Resolved} {i j : Nat}
    (hr : requirements[i]? = some r) (hr' : requirements[j]? = some r') (h : r.id = r'.id) :
    i = j := by
  have hi : i < (requirements.map (·.id)).length := by
    rw [List.length_map]
    exact (List.getElem?_eq_some_iff.mp hr).1
  apply (List.getElem?_inj hi hids).mp
  rw [List.getElem?_map, List.getElem?_map, hr, hr', Option.map_some, Option.map_some, h]

theorem filter_connections (hids : (requirements.map (·.id)).Nodup) {r : Resolved} {i : Nat}
    (hr : requirements[i]? = some r) :
    (requirements.zipIdx.flatMap fun e => connections keep (Contender.of courses e.1, e.2)).filter
        (fun e => e.1 = r.id)
      = connections keep (Contender.of courses r, i) := by
  refine filter_flatMap_eq requirements.zipIdx _ _ (r, i) ?_ ?_ ?_ ?_
  · exact List.mem_zipIdx_iff_getElem?.mpr hr
  · apply List.Nodup.of_map Prod.snd
    rw [List.zipIdx_map_snd]
    exact List.nodup_range'
  · intro e he
    exact decide_eq_true (fst_of_mem_connections keep courses he)
  · rintro ⟨r', j⟩ hj hne e he
    rw [decide_eq_false_iff_not, fst_of_mem_connections keep courses he]
    intro hid
    have hr' : requirements[j]? = some r' := List.mem_zipIdx_iff_getElem?.mp hj
    have hij := index_unique hids hr' hr hid
    subst hij
    rw [hr] at hr'
    exact hne (by rw [Option.some.inj hr'])

/-- **The courses of a requirement**: its candidates that are let through, and of several rows
with the same two identities the first. -/
theorem coursesOf_graph (hids : (requirements.map (·.id)).Nodup) {r : Resolved} {i : Nat}
    (hr : requirements[i]? = some r) :
    (graph (requirements.map (Contender.of courses)) keep).coursesOf r.id
      = firstPer Course.identities (courses.filter fun c => r.isCandidate c
          && keep i (Contender.of courses r) ⟨c, r.isOptedIn c.courseId⟩) := by
  have hkey : ∀ c c' : Course,
      edgeOf (r.id, c) = edgeOf (r.id, c') ↔ c.identities = c'.identities := by
    intro c c'
    rw [Course.identities_eq_iff]
    show edge r.id c = edge r.id c' ↔ _
    rw [edge_eq_iff]
    exact and_iff_right rfl
  have hlog := records_graph keep (requirements.map (Contender.of courses))
  rw [hlog.courses, ← firstPer_filter, flatMap_connections, filter_connections keep courses hids hr,
    connections_of, firstPer_map, List.map_map]
  · rw [firstPer_congr _ Course.identities hkey]
    exact List.map_id _
  · intro e _ e' _ h
    rw [((edge_eq_iff e.1 e'.1 e.2 e'.2).mp h).1]

theorem coursesOf_graph_eq_nil {id : RequirementId} (hid : id ∉ requirements.map (·.id)) :
    (graph (requirements.map (Contender.of courses)) keep).coursesOf id = [] := by
  have hlog := records_graph keep (requirements.map (Contender.of courses))
  rw [hlog.courses, List.map_eq_nil_iff, List.filter_eq_nil_iff]
  intro e he
  have hcall := (firstPer_sublist _ _).subset he
  rw [flatMap_connections] at hcall
  obtain ⟨⟨r, i⟩, hr, hmem⟩ := List.mem_flatMap.mp hcall
  rw [decide_eq_true_eq, fst_of_mem_connections keep courses hmem]
  intro h
  have hr' : requirements[i]? = some r := List.mem_zipIdx_iff_getElem?.mp hr
  exact hid (List.mem_map.mpr ⟨r, List.mem_of_getElem? hr', h⟩)

end

variable {requirements : List Resolved} (courses : List Course)

/-- **The dangerous graph** connects a requirement to all its candidates. -/
theorem coursesOf_dangerous (hids : (requirements.map (·.id)).Nodup) {r : Resolved}
    (hr : r ∈ requirements) :
    (Allocation.of requirements courses).dangerous.coursesOf r.id
      = firstPer Course.identities (courses.filter r.isCandidate) := by
  obtain ⟨i, hi⟩ := List.getElem?_of_mem hr
  have h := coursesOf_graph (fun _ _ _ => true) courses hids hi
  simp only [Bool.and_true] at h
  exact h

theorem coursesOf_dangerous_sublist (hids : (requirements.map (·.id)).Nodup) {r : Resolved}
    (hr : r ∈ requirements) :
    ((Allocation.of requirements courses).dangerous.coursesOf r.id).Sublist courses := by
  rw [coursesOf_dangerous courses hids hr]
  exact (firstPer_sublist _ _).trans List.filter_sublist

theorem mem_dangerous (hids : (requirements.map (·.id)).Nodup) {r : Resolved}
    (hr : r ∈ requirements) {c : Course}
    (hc : c ∈ (Allocation.of requirements courses).dangerous.coursesOf r.id) :
    c ∈ courses ∧ r.isCandidate c = true := by
  rw [coursesOf_dangerous courses hids hr] at hc
  exact List.mem_filter.mp ((firstPer_sublist _ _).subset hc)

/-- a row that no other one has the identities of is connected wherever it is a candidate -/
theorem mem_dangerous_iff_of_unique (hids : (requirements.map (·.id)).Nodup) {r : Resolved}
    (hr : r ∈ requirements) {c : Course} (hc : c ∈ courses)
    (hsame : ∀ c' ∈ courses, c'.identities = c.identities → c' = c) :
    c ∈ (Allocation.of requirements courses).dangerous.coursesOf r.id ↔ r.isCandidate c = true := by
  constructor
  · exact fun h => (mem_dangerous courses hids hr h).2
  · intro hcand
    rw [coursesOf_dangerous courses hids hr]
    apply mem_firstPer_of_unique _ (List.mem_filter.mpr ⟨hc, hcand⟩)
    exact fun c' hc' => hsame c' (List.mem_filter.mp hc').1

end Allocation

end DegreeProgress
