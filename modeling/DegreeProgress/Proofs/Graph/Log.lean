import DegreeProgress.Audit.Graph
import DegreeProgress.Proofs.FirstRows
import DegreeProgress.Proofs.Sorted.Views

/-!
# Course graphs as logs

A course graph keeps one relation in three indexes.  `CourseGraph.Records g log` says that the
indexes of `g` are those of the log: the list of connections in the order in which they were made.

* `Records.addEdge`          connecting appends to the log, unless the edge is there already;
* `Records.addRequirement`   making room for a requirement leaves the log alone;
* `Records.connectAll`       after any number of calls the log is the first call for every edge;
* `Records.mem_edges`        so there is an edge for every call, and the edges say which
                             requirements an identity has.
-/

namespace DegreeProgress

/-- the two identities by which an edge knows its course -/
def Course.identities (c : Course) : UniqueId × CourseId := (c.uniqueId, c.courseId)

theorem Course.identities_eq_iff (c c' : Course) :
    c.identities = c'.identities ↔ c.uniqueId = c'.uniqueId ∧ c.courseId = c'.courseId := by
  unfold identities
  rw [Prod.mk.injEq]

namespace CourseGraph

/-- a requirement and a course connected to it -/
abbrev Connection : Type := RequirementId × Course

/-- the edge that a connection is known by -/
def edgeOf (e : Connection) : Edge := edge e.1 e.2

theorem edge_eq_iff (r r' : RequirementId) (c c' : Course) :
    edge r c = edge r' c' ↔ r = r' ∧ c.uniqueId = c'.uniqueId ∧ c.courseId = c'.courseId := by
  unfold edge
  rw [Edge.mk.injEq]

theorem coursesOf_addRequirement (g : CourseGraph) (r r' : RequirementId) :
    (g.addRequirement r).coursesOf r' = g.coursesOf r' := by
  unfold addRequirement coursesOf
  rw [SortedMap.get?_alter]
  by_cases hr : r' = r
  · subst hr
    rw [if_pos rfl]
    cases g.courses.get? r' with
    | none => rfl
    | some courses => rfl
  · rw [if_neg hr]

/-- the three indexes of the graph are those of the log -/
structure Records (g : CourseGraph) (log : List Connection) : Prop where
  courses : ∀ r, g.coursesOf r = (log.filter fun e => e.1 = r).map (·.2)
  requirements : ∀ u, g.requirementsOf u
    = firstPer id ((log.filter fun e => e.2.uniqueId = u).map (·.1))
  uniqueIds : ∀ u, u ∈ g.uniqueIds ↔ ∃ e ∈ log, e.2.uniqueId = u
  edges : g.edges = (log.map edgeOf).reverse

namespace Records

theorem empty : Records CourseGraph.empty [] where
  courses _ := rfl
  requirements _ := rfl
  uniqueIds u := by
    constructor
    · intro h
      exact absurd h List.not_mem_nil
    · rintro ⟨e, he, _⟩
      exact absurd he List.not_mem_nil
  edges := rfl

variable {g : CourseGraph} {log : List Connection}

theorem containsEdge_iff (h : Records g log) (r : RequirementId) (c : Course) :
    g.containsEdge r c = true ↔ edge r c ∈ log.map edgeOf := by
  unfold containsEdge
  rw [h.edges, List.contains_iff_mem, List.mem_reverse]

theorem addRequirement (h : Records g log) (r : RequirementId) :
    Records (g.addRequirement r) log where
  courses r' := (coursesOf_addRequirement g r r').trans (h.courses r')
  requirements := h.requirements
  uniqueIds := h.uniqueIds
  edges := h.edges

section
variable (h : Records g log) (r : RequirementId) (c : Course)
include h

theorem not_containsEdge (hnew : edge r c ∉ log.map edgeOf) : ¬g.containsEdge r c = true :=
  fun e => hnew ((h.containsEdge_iff r c).mp e)

theorem coursesOf_addEdge_new (hnew : edge r c ∉ log.map edgeOf) (r' : RequirementId) :
    (g.addEdge r c).coursesOf r' = if r' = r then g.coursesOf r ++ [c] else g.coursesOf r' := by
  unfold CourseGraph.addEdge coursesOf
  rw [if_neg (h.not_containsEdge r c hnew)]
  show ((g.courses.alter r _).get? r').getD [] = _
  rw [SortedMap.get?_alter]
  by_cases hr : r' = r
  · rw [if_pos hr, if_pos hr]
    cases g.courses.get? r with
    | none => rfl
    | some courses => rfl
  · rw [if_neg hr, if_neg hr]

theorem requirementsOf_addEdge_new (hnew : edge r c ∉ log.map edgeOf) (u : UniqueId) :
    (g.addEdge r c).requirementsOf u
      = if u = c.uniqueId ∧ r ∉ g.requirementsOf u then g.requirementsOf u ++ [r]
        else g.requirementsOf u := by
  unfold CourseGraph.addEdge requirementsOf
  rw [if_neg (h.not_containsEdge r c hnew)]
  show ((g.requirements.alter c.uniqueId _).get? u).getD [] = _
  rw [SortedMap.get?_alter]
  by_cases hu : u = c.uniqueId
  · subst hu
    rw [if_pos rfl]
    cases g.requirements.get? c.uniqueId with
    | none => simp
    | some ids =>
      simp only [Option.getD_some, List.contains_iff_mem, true_and]
      by_cases hr : r ∈ ids
      · rw [if_pos hr, if_neg (not_not_intro hr)]
      · rw [if_neg hr, if_pos hr]
  · rw [if_neg hu, if_neg fun e => hu e.1]

theorem addEdge_new (hnew : edge r c ∉ log.map edgeOf) :
    Records (g.addEdge r c) (log ++ [(r, c)]) where
  courses r' := by
    rw [h.coursesOf_addEdge_new r c hnew, List.filter_append, List.map_append, ← h.courses r']
    by_cases hr : r' = r
    · subst hr
      simp
    · simp [hr, Ne.symm hr]
  requirements u := by
    rw [h.requirementsOf_addEdge_new r c hnew, List.filter_append, List.map_append]
    by_cases hu : u = c.uniqueId
    · subst hu
      have hone : ([(r, c)].filter fun e => e.2.uniqueId = c.uniqueId).map (·.1) = [r] := by simp
      have hmem : id r ∈ ((log.filter fun e => e.2.uniqueId = c.uniqueId).map (·.1)).map id
          ↔ r ∈ g.requirementsOf c.uniqueId := by
        rw [← mem_map_firstPer, ← h.requirements, List.map_id, id_eq]
      rw [hone, firstPer_append_singleton, ← h.requirements]
      by_cases hr : r ∈ g.requirementsOf c.uniqueId
      · rw [if_pos (hmem.mpr hr), if_neg fun e => e.2 hr]
      · rw [if_neg fun e => hr (hmem.mp e), if_pos ⟨rfl, hr⟩]
    · have hnil : ([(r, c)].filter fun e => e.2.uniqueId = u).map (·.1) = [] := by
        simp [Ne.symm hu]
      rw [if_neg fun e => hu e.1, hnil, List.append_nil, h.requirements]
  uniqueIds u := by
    unfold CourseGraph.addEdge CourseGraph.uniqueIds
    rw [if_neg (h.not_containsEdge r c hnew)]
    show u ∈ (g.requirements.alter c.uniqueId _).keys ↔ _
    have hold : u ∈ g.requirements.keys ↔ ∃ e ∈ log, e.2.uniqueId = u := h.uniqueIds u
    rw [SortedMap.mem_keys_alter, hold]
    constructor
    · rintro (rfl | ⟨e, he, rfl⟩)
      · exact ⟨(r, c), List.mem_append_right _ List.mem_cons_self, rfl⟩
      · exact ⟨e, List.mem_append_left _ he, rfl⟩
    · rintro ⟨e, he, rfl⟩
      rcases List.mem_append.mp he with he | he
      · exact Or.inr ⟨e, he, rfl⟩
      · rw [List.mem_singleton.mp he]
        exact Or.inl rfl
  edges := by
    unfold CourseGraph.addEdge
    rw [if_neg (h.not_containsEdge r c hnew), List.map_append, List.reverse_append, ← h.edges]
    rfl

/-- **One call**: a course is connected unless its edge is there already. -/
theorem addEdge : Records (g.addEdge r c)
    (if edge r c ∈ log.map edgeOf then log else log ++ [(r, c)]) := by
  by_cases hold : edge r c ∈ log.map edgeOf
  · rw [if_pos hold]
    unfold CourseGraph.addEdge
    rw [if_pos ((h.containsEdge_iff r c).mpr hold)]
    exact h
  · rw [if_neg hold]
    exact h.addEdge_new r c hold

end

/-- **A run of calls**: the log holds the first call for every edge, in the order of the calls. -/
theorem connectAll (calls more : List Connection) (h : Records g (firstPer edgeOf calls)) :
    Records (more.foldl (fun g e => g.addEdge e.1 e.2) g) (firstPer edgeOf (calls ++ more)) := by
  induction more generalizing g calls with
  | nil =>
    rw [List.append_nil]
    exact h
  | cons e more ih =>
    have hstep := h.addEdge e.1 e.2
    have hmem : edge e.1 e.2 ∈ (firstPer edgeOf calls).map edgeOf ↔ edgeOf e ∈ calls.map edgeOf :=
      mem_map_firstPer edgeOf calls (edgeOf e)
    simp only [hmem] at hstep
    have hfirst := firstPer_append_singleton edgeOf calls e
    rw [← hfirst] at hstep
    have h := ih (calls ++ [e]) hstep
    rwa [List.append_assoc, List.singleton_append] at h

theorem mem_requirementsOf (h : Records g log) (u : UniqueId) (r : RequirementId) :
    r ∈ g.requirementsOf u ↔ ∃ c, (r, c) ∈ log ∧ c.uniqueId = u := by
  have hmem := mem_map_firstPer id ((log.filter fun e => e.2.uniqueId = u).map (·.1)) r
  rw [List.map_id, List.map_id] at hmem
  rw [h.requirements u, hmem, List.mem_map]
  constructor
  · rintro ⟨⟨r', c⟩, he, rfl⟩
    obtain ⟨hl, hu⟩ := List.mem_filter.mp he
    exact ⟨c, hl, of_decide_eq_true hu⟩
  · rintro ⟨c, hl, hu⟩
    exact ⟨(r, c), List.mem_filter.mpr ⟨hl, decide_eq_true hu⟩, rfl⟩

theorem nodup_requirementsOf (h : Records g log) (u : UniqueId) : (g.requirementsOf u).Nodup := by
  have hnd := nodup_map_firstPer id ((log.filter fun e => e.2.uniqueId = u).map (·.1))
  rwa [List.map_id, ← h.requirements u] at hnd

theorem mem_coursesOf (h : Records g log) (r : RequirementId) (c : Course) :
    c ∈ g.coursesOf r ↔ (r, c) ∈ log := by
  rw [h.courses r, List.mem_map]
  constructor
  · rintro ⟨⟨r', c'⟩, he, rfl⟩
    obtain ⟨hl, hr⟩ := List.mem_filter.mp he
    rw [← of_decide_eq_true hr]
    exact hl
  · intro hl
    exact ⟨(r, c), List.mem_filter.mpr ⟨hl, decide_eq_true rfl⟩, rfl⟩

theorem nodup_identities_coursesOf (h : Records g log) (hnd : (log.map edgeOf).Nodup)
    (r : RequirementId) : ((g.coursesOf r).map Course.identities).Nodup := by
  have hedges : (log.filter fun e => e.1 = r).map edgeOf
      = ((g.coursesOf r).map Course.identities).map fun k => ⟨r, k.1, k.2⟩ := by
    rw [h.courses r, List.map_map, List.map_map]
    apply List.map_congr_left
    intro e he
    have hr : e.1 = r := of_decide_eq_true (List.mem_filter.mp he).2
    rw [← hr]
    rfl
  have hsub : ((log.filter fun e => e.1 = r).map edgeOf).Nodup :=
    hnd.sublist (List.filter_sublist.map edgeOf)
  rw [hedges] at hsub
  exact hsub.of_map

theorem containsEdge_iff_coursesOf (h : Records g log) (r : RequirementId) (c : Course) :
    g.containsEdge r c = true ↔ c.identities ∈ (g.coursesOf r).map Course.identities := by
  rw [h.containsEdge_iff, List.mem_map, List.mem_map]
  constructor
  · rintro ⟨⟨r', c'⟩, hl, he⟩
    obtain ⟨rfl, hc⟩ := (edge_eq_iff r' r c' c).mp he
    exact ⟨c', (h.mem_coursesOf r' c').mpr hl, (c'.identities_eq_iff c).mpr hc⟩
  · rintro ⟨c', hc', he⟩
    refine ⟨(r, c'), (h.mem_coursesOf r c').mp hc', ?_⟩
    exact (edge_eq_iff r r c' c).mpr ⟨rfl, (c'.identities_eq_iff c).mp he⟩

/-! ### what the edges determine -/

theorem mem_edges {calls : List Connection} (h : Records g (firstPer edgeOf calls)) (e : Edge) :
    e ∈ g.edges ↔ e ∈ calls.map edgeOf := by
  rw [h.edges, List.mem_reverse, mem_map_firstPer]

theorem mem_requirementsOf_iff_edges (h : Records g log) (u : UniqueId) (r : RequirementId) :
    r ∈ g.requirementsOf u ↔ ∃ e ∈ g.edges, e.requirement = r ∧ e.uniqueId = u := by
  rw [h.mem_requirementsOf, h.edges]
  constructor
  · rintro ⟨c, hl, rfl⟩
    exact ⟨edgeOf (r, c), List.mem_reverse.mpr (List.mem_map_of_mem hl), rfl, rfl⟩
  · rintro ⟨e, he, rfl, rfl⟩
    obtain ⟨⟨r, c⟩, hl, rfl⟩ := List.mem_map.mp (List.mem_reverse.mp he)
    exact ⟨c, hl, rfl⟩

theorem mem_uniqueIds_iff_edges (h : Records g log) (u : UniqueId) :
    u ∈ g.uniqueIds ↔ ∃ e ∈ g.edges, e.uniqueId = u := by
  rw [h.uniqueIds, h.edges]
  constructor
  · rintro ⟨e, hl, rfl⟩
    exact ⟨edgeOf e, List.mem_reverse.mpr (List.mem_map_of_mem hl), rfl⟩
  · rintro ⟨e, he, rfl⟩
    obtain ⟨e, hl, rfl⟩ := List.mem_map.mp (List.mem_reverse.mp he)
    exact ⟨e, hl, rfl⟩

end Records

end CourseGraph

end DegreeProgress
