import DegreeProgress.Proofs.Graph.Log

/-!
# Calls on a course graph

A graph is made by calls that make room for a requirement or connect a course.  `CourseGraph.run`
performs calls one after another and keeps their answers.  Whatever the calls,

* `getElem?_answers`   a call to connect is answered by whether no earlier one asked for its edge;
* `added_run`          so the calls answered with yes are the first ones for their edges;
* `records_run`        they are the log of the graph;
* `edgeCount_run`      every edge is one course in the list of one requirement;
* `shows_run`          and the indexes of the graph are three views of this log.
-/

namespace DegreeProgress

namespace CourseGraph

/-- a call that changes a graph -/
inductive Call where
  | addRequirement (requirement : RequirementId)
  | addEdge (requirement : RequirementId) (c : Course)

/-- the connection that a call asks for -/
def Call.connection? : Call → Option Connection
  | addRequirement _ => none
  | addEdge r c => some (r, c)

/-- performs a call; one that connects is answered by whether its edge is new -/
def perform (g : CourseGraph) : Call → CourseGraph × Option Bool
  | .addRequirement r => (g.addRequirement r, none)
  | .addEdge r c =>
    let (g, added) := g.tryAddEdge r c
    (g, some added)

/-- performs calls one after another, with their answers -/
def run (g : CourseGraph) : List Call → CourseGraph × List (Option Bool)
  | [] => (g, [])
  | call :: calls =>
    let (g, answer) := g.perform call
    let (g, answers) := g.run calls
    (g, answer :: answers)

/-- the connections that some calls ask for -/
def asked (calls : List Call) : List Connection := calls.filterMap Call.connection?

/-- the connections whose calls were answered with yes -/
def added (calls : List Call) (answers : List (Option Bool)) : List Connection :=
  asked (((calls.zip answers).filter fun e => e.2 == some true).map (·.1))

theorem asked_cons (call : Call) (calls : List Call) :
    asked (call :: calls) = call.connection?.toList ++ asked calls := by
  cases call with
  | addRequirement r => rfl
  | addEdge r c => rfl

theorem added_cons (call : Call) (calls : List Call) (answer : Option Bool)
    (answers : List (Option Bool)) :
    added (call :: calls) (answer :: answers)
      = (if answer = some true then call.connection?.toList else []) ++ added calls answers := by
  unfold added
  rw [List.zip_cons_cons, List.filter_cons]
  by_cases h : answer = some true
  · rw [if_pos (beq_iff_eq.mpr h), if_pos h, List.map_cons, asked_cons]
  · rw [if_neg fun e => h (beq_iff_eq.mp e), if_neg h, List.nil_append]

/-! ### one call -/

section
variable {g : CourseGraph} {done : List Connection} (h : Records g (firstPer edgeOf done))
include h

theorem records_perform (call : Call) :
    Records (g.perform call).1 (firstPer edgeOf (done ++ call.connection?.toList)) := by
  cases call with
  | addRequirement r =>
    show Records (g.addRequirement r) (firstPer edgeOf (done ++ []))
    rw [List.append_nil]
    exact h.addRequirement r
  | addEdge r c => exact h.connectAll done [(r, c)]

theorem answer_perform (call : Call) :
    (g.perform call).2 = call.connection?.map fun e => decide (edgeOf e ∉ done.map edgeOf) := by
  cases call with
  | addRequirement r => rfl
  | addEdge r c =>
    show some (!g.containsEdge r c) = some (decide (edge r c ∉ done.map edgeOf))
    rw [Option.some.injEq, Bool.eq_iff_iff, Bool.not_eq_true', ← Bool.not_eq_true,
      h.containsEdge_iff, mem_map_firstPer, decide_eq_true_iff]

/-! ### a run of calls -/

theorem records_run (calls : List Call) :
    Records (g.run calls).1 (firstPer edgeOf (done ++ asked calls)) := by
  induction calls generalizing g done with
  | nil =>
    show Records g (firstPer edgeOf (done ++ []))
    rw [List.append_nil]
    exact h
  | cons call calls ih =>
    have hrest := ih (records_perform h call)
    rwa [List.append_assoc, ← asked_cons] at hrest

/-- a call to connect is answered by whether its edge was not asked for before -/
theorem getElem?_answers (calls : List Call) (i : Nat) :
    (g.run calls).2[i]? = calls[i]?.map fun call => call.connection?.map fun e =>
      decide (edgeOf e ∉ (done ++ asked (calls.take i)).map edgeOf) := by
  induction calls generalizing g done i with
  | nil => rfl
  | cons call calls ih =>
    cases i with
    | zero =>
      show some (g.perform call).2 = some (call.connection?.map fun e =>
        decide (edgeOf e ∉ (done ++ []).map edgeOf))
      rw [answer_perform h, List.append_nil]
    | succ i =>
      have hrest := ih (records_perform h call) i
      rwa [List.append_assoc, ← asked_cons, ← List.take_succ_cons] at hrest

/-- the calls answered with yes extend the log to the first calls for every edge -/
theorem firstPer_append_added (calls : List Call) :
    firstPer edgeOf done ++ added calls (g.run calls).2
      = firstPer edgeOf (done ++ asked calls) := by
  induction calls generalizing g done with
  | nil =>
    show firstPer edgeOf done ++ [] = firstPer edgeOf (done ++ [])
    rw [List.append_nil, List.append_nil]
  | cons call calls ih =>
    have hstep : firstPer edgeOf done ++
        (if (g.perform call).2 = some true then call.connection?.toList else [])
        = firstPer edgeOf (done ++ call.connection?.toList) := by
      rw [answer_perform h]
      cases call with
      | addRequirement r => simp [Call.connection?]
      | addEdge r c =>
        show firstPer edgeOf done ++ (if some _ = some true then [(r, c)] else [])
          = firstPer edgeOf (done ++ [(r, c)])
        rw [firstPer_append_singleton]
        by_cases hold : edgeOf (r, c) ∈ done.map edgeOf
        · simp [hold]
        · simp [hold]
    show firstPer edgeOf done ++
      added (call :: calls) ((g.perform call).2 :: ((g.perform call).1.run calls).2) = _
    rw [added_cons, ← List.append_assoc, hstep, ih (records_perform h call), List.append_assoc,
      ← asked_cons]

end

theorem added_run (calls : List Call) :
    added calls (empty.run calls).2 = firstPer edgeOf (asked calls) := by
  have hnone : Records empty (firstPer edgeOf []) := Records.empty
  exact firstPer_append_added hnone calls

/-! ### the number of edges -/

/-- every edge is a course in the list of a requirement -/
def EdgesAreListed (g : CourseGraph) : Prop :=
  g.edgeCount = (g.courses.values.map List.length).sum

theorem EdgesAreListed.perform {g : CourseGraph} (h : g.EdgesAreListed) (call : Call) :
    (g.perform call).1.EdgesAreListed := by
  unfold EdgesAreListed at h ⊢
  cases call with
  | addRequirement r =>
    show g.edgeCount = ((g.courses.alter r _).values.map List.length).sum
    rw [SortedMap.sum_values_alter g.courses r List.length (d := 0) rfl fun _ => rfl, h]
    rfl
  | addEdge r c =>
    show (g.addEdge r c).edgeCount = ((g.addEdge r c).courses.values.map List.length).sum
    unfold addEdge
    split
    · exact h
    · show g.edgeCount + 1 = ((g.courses.alter r _).values.map List.length).sum
      rw [SortedMap.sum_values_alter g.courses r List.length (d := 1) rfl
        fun courses => List.length_append, h]

theorem EdgesAreListed.run {g : CourseGraph} (h : g.EdgesAreListed) (calls : List Call) :
    (g.run calls).1.EdgesAreListed := by
  induction calls generalizing g with
  | nil => exact h
  | cons call calls ih => exact ih (h.perform call)

theorem edgeCount_run (calls : List Call) :
    (empty.run calls).1.edgeCount
      = ((empty.run calls).1.courses.keys.map fun r =>
          ((empty.run calls).1.coursesOf r).length).sum := by
  have hlisted : (empty.run calls).1.EdgesAreListed :=
    EdgesAreListed.run (g := empty) rfl calls
  have hkeys := congrArg (List.map fun o : Option (List Course) => (o.getD []).length)
    (empty.run calls).1.courses.map_get?_keys
  rw [List.map_map, List.map_map] at hkeys
  exact hlisted.trans (congrArg List.sum hkeys.symm)

/-! ### what a graph shows -/

/-- two graphs answer every question in the same way -/
structure SameViews (g g' : CourseGraph) : Prop where
  coursesOf : g.coursesOf = g'.coursesOf
  requirementsOf : g.requirementsOf = g'.requirementsOf
  containsEdge : g.containsEdge = g'.containsEdge
  uniqueIds : g.uniqueIds = g'.uniqueIds
  edgeCount : g.edgeCount = g'.edgeCount

theorem addRequirement_sameViews (g : CourseGraph) (r : RequirementId) :
    SameViews (g.addRequirement r) g where
  coursesOf := funext (coursesOf_addRequirement g r)
  requirementsOf := rfl
  containsEdge := rfl
  uniqueIds := rfl
  edgeCount := rfl

/-- what a graph shows of the calls that made it, given how they were answered -/
structure Shows (calls : List Call) (g : CourseGraph) (answers : List (Option Bool)) : Prop where
  /-- a call to connect is answered with yes if no earlier one asked for its edge -/
  answered : ∀ i : Nat, answers[i]? = calls[i]?.map fun call => call.connection?.map fun e =>
    decide (edgeOf e ∉ (asked (calls.take i)).map edgeOf)
  /-- a requirement has the courses of its calls that were answered with yes, in their order -/
  courses : ∀ r, g.coursesOf r = ((added calls answers).filter fun e => e.1 = r).map (·.2)
  nodup_courses : ∀ r, ((g.coursesOf r).map Course.identities).Nodup
  /-- an identity has its requirements in the order of their first edges to it -/
  requirements : ∀ u, g.requirementsOf u
    = firstPer id (((added calls answers).filter fun e => e.2.uniqueId = u).map (·.1))
  nodup_requirements : ∀ u, (g.requirementsOf u).Nodup
  mem_requirements : ∀ u r,
    r ∈ g.requirementsOf u ↔ ∃ c, g.containsEdge r c = true ∧ c.uniqueId = u
  containsEdge : ∀ r c, g.containsEdge r c = true
    ↔ ∃ c', (r, c') ∈ added calls answers ∧ c'.uniqueId = c.uniqueId ∧ c'.courseId = c.courseId
  uniqueIds : ∀ u, u ∈ g.uniqueIds ↔ ∃ r c, g.containsEdge r c = true ∧ c.uniqueId = u
  nodup_uniqueIds : g.uniqueIds.Nodup
  edgeCount : g.edgeCount = (g.courses.keys.map fun r => (g.coursesOf r).length).sum
  addRequirement : ∀ r, SameViews (g.addRequirement r) g

theorem Records.exists_containsEdge_iff {g : CourseGraph} {log : List Connection}
    (h : Records g log) (r : RequirementId) (u : UniqueId) :
    (∃ c, g.containsEdge r c = true ∧ c.uniqueId = u) ↔ ∃ c, (r, c) ∈ log ∧ c.uniqueId = u := by
  constructor
  · rintro ⟨c, hedge, rfl⟩
    obtain ⟨⟨r', c'⟩, hlog, he⟩ := List.mem_map.mp ((h.containsEdge_iff r c).mp hedge)
    obtain ⟨rfl, hu, _⟩ := (edge_eq_iff r' r c' c).mp he
    exact ⟨c', hlog, hu⟩
  · rintro ⟨c, hlog, hu⟩
    exact ⟨c, (h.containsEdge_iff r c).mpr (List.mem_map_of_mem hlog), hu⟩

/-- **Three indexes, one relation.**  After any calls on an empty graph its indexes are three views
of the connections that were answered with yes, which are the first ones for their edges. -/
theorem shows_run (calls : List Call) :
    Shows calls (empty.run calls).1 (empty.run calls).2 := by
  have hempty : Records empty (firstPer edgeOf []) := Records.empty
  have hlog : Records (empty.run calls).1 (added calls (empty.run calls).2) := by
    rw [added_run]
    exact records_run hempty calls
  have hnd : ((added calls (empty.run calls).2).map edgeOf).Nodup := by
    rw [added_run]
    exact nodup_map_firstPer edgeOf (asked calls)
  constructor
  case answered => exact getElem?_answers hempty calls
  case courses => exact hlog.courses
  case nodup_courses => exact hlog.nodup_identities_coursesOf hnd
  case requirements => exact hlog.requirements
  case nodup_requirements => exact hlog.nodup_requirementsOf
  case mem_requirements =>
    intro u r
    rw [hlog.mem_requirementsOf, hlog.exists_containsEdge_iff]
  case containsEdge =>
    intro r c
    rw [hlog.containsEdge_iff, List.mem_map]
    constructor
    · rintro ⟨⟨r', c'⟩, hmem, he⟩
      obtain ⟨rfl, hc⟩ := (edge_eq_iff r' r c' c).mp he
      exact ⟨c', hmem, hc⟩
    · rintro ⟨c', hmem, hc⟩
      exact ⟨(r, c'), hmem, (edge_eq_iff r r c' c).mpr ⟨rfl, hc⟩⟩
  case uniqueIds =>
    intro u
    rw [hlog.uniqueIds]
    constructor
    · rintro ⟨⟨r, c⟩, hmem, hu⟩
      exact ⟨r, (hlog.exists_containsEdge_iff r u).mpr ⟨c, hmem, hu⟩⟩
    · rintro ⟨r, hc⟩
      obtain ⟨c, hmem, hu⟩ := (hlog.exists_containsEdge_iff r u).mp hc
      exact ⟨(r, c), hmem, hu⟩
  case nodup_uniqueIds => exact SortedMap.nodup_keys _
  case edgeCount => exact edgeCount_run calls
  case addRequirement => exact addRequirement_sameViews _

/-- two rows of one identity are two edges, but their requirement is listed once -/
example :
    let u := UniqueId.named "AP Biology"
    let row (k : UInt64) : Call := .addEdge ⟨"Core"⟩ ⟨u, ⟨k⟩, "AP Biology", 0.0⟩
    let (g, answers) := empty.run [row 11, row 12, row 11]
    answers = [some true, some true, some false] ∧ g.requirementsOf u = [⟨"Core"⟩] ∧
      g.edgeCount = 2 := by
  decide +kernel

end CourseGraph

end DegreeProgress
