import DegreeProgress.Audit.Allocation
import DegreeProgress.Proofs.Rule.Windows
import DegreeProgress.Proofs.Sorted.Views

/-!
# Candidates

Which rows of a course list a requirement could use, said row by row:

* `Resolved.isCandidate`   not kept out by hand, and put in by hand or taken by an active slot;
* `Resolved.isMatched`     taken by an active slot, with no override of the row.

The program collects their numbers in sorted sets, window by window (`CandidateRows.mem_rows`), and
then walks them; `Resolved.candidates_eq` says that this is the same.  A course identity may have
several rows, so a requirement opts in an identity, or matches it, by one of its rows (`OptsIn`,
`MatchesId`), and could use it by any candidate row (`Uses`).
-/

namespace DegreeProgress

namespace Resolved

/-- some active slot takes the row -/
def takes (r : Resolved) (c : Course) : Bool := r.slots.any (·.checker.accepts c)

def isCandidate (r : Resolved) (c : Course) : Bool :=
  !r.isOptedOut c.courseId && (r.isOptedIn c.courseId || r.takes c)

def isMatched (r : Resolved) (c : Course) : Bool :=
  !r.isOptedIn c.courseId && !r.isOptedOut c.courseId && r.takes c

/-- some row of the identity is a candidate -/
def Uses (r : Resolved) (courses : List Course) (u : UniqueId) : Prop :=
  ∃ c ∈ courses, c.uniqueId = u ∧ r.isCandidate c = true

/-- some row of the identity is put in by hand -/
def OptsIn (r : Resolved) (courses : List Course) (u : UniqueId) : Prop :=
  ∃ c ∈ courses, c.uniqueId = u ∧ r.isOptedIn c.courseId = true

/-- some row of the identity is matched -/
def MatchesId (r : Resolved) (courses : List Course) (u : UniqueId) : Prop :=
  ∃ c ∈ courses, c.uniqueId = u ∧ r.isMatched c = true

/-- the identity is matched, and no other one is -/
def MatchesOnly (r : Resolved) (courses : List Course) (u : UniqueId) : Prop :=
  r.MatchesId courses u ∧ ∀ c ∈ courses, r.isMatched c = true → c.uniqueId = u

theorem isOptedOut_of_isOptedIn {r : Resolved} {k : CourseId} (h : r.isOptedIn k = true) :
    r.isOptedOut k = false := by
  unfold isOptedIn at h
  rw [Bool.and_eq_true, Bool.not_eq_true'] at h
  exact h.1

theorem isOptedIn_of_isOptedOut {r : Resolved} {k : CourseId} (h : r.isOptedOut k = true) :
    r.isOptedIn k = false := by
  unfold isOptedIn
  rw [h]
  rfl

theorem isOptedOut_of_isCandidate {r : Resolved} {c : Course} (h : r.isCandidate c = true) :
    r.isOptedOut c.courseId = false := by
  unfold isCandidate at h
  rw [Bool.and_eq_true, Bool.not_eq_true'] at h
  exact h.1

theorem isCandidate_of_isOptedIn {r : Resolved} {c : Course} (h : r.isOptedIn c.courseId = true) :
    r.isCandidate c = true := by
  unfold isCandidate
  rw [isOptedOut_of_isOptedIn h, h]
  rfl

theorem isCandidate_of_isMatched {r : Resolved} {c : Course} (h : r.isMatched c = true) :
    r.isCandidate c = true := by
  unfold isMatched at h
  unfold isCandidate
  simp only [Bool.and_eq_true, Bool.not_eq_true'] at h
  rw [h.1.2, h.2]
  simp

theorem not_isOptedIn_of_isMatched {r : Resolved} {c : Course} (h : r.isMatched c = true) :
    r.isOptedIn c.courseId = false := by
  unfold isMatched at h
  simp only [Bool.and_eq_true, Bool.not_eq_true'] at h
  exact h.1.1

theorem isMatched_of_isCandidate {r : Resolved} {c : Course} (h : r.isCandidate c = true)
    (hin : r.isOptedIn c.courseId = false) : r.isMatched c = true := by
  unfold isCandidate at h
  unfold isMatched
  rw [hin] at h ⊢
  simpa using h

end Resolved

/-! ### the rows by their numbers -/

namespace CandidateRows

variable (r : Resolved) (courses : List Course) (row : Nat)

theorem mem_forced : row ∈ (of r courses).forced
    ↔ ∃ c, courses[row]? = some c ∧ r.isOptedIn c.courseId = true := by
  show row ∈ SortedSet.ofList _ ↔ _
  rw [SortedSet.mem_ofList]
  exact mem_positions_iff courses (fun c => r.isOptedIn c.courseId) row

theorem contains_forced {row : Nat} {c : Course} (h : courses[row]? = some c) :
    (of r courses).forced.contains row = r.isOptedIn c.courseId := by
  rw [Bool.eq_iff_iff, SortedSet.contains_iff, mem_forced, h]
  simp

/-- the windows of the slots find the rows that a slot takes -/
theorem mem_found : row ∈ (r.slots.flatMap fun slot => slot.checker.matching courses)
    ↔ ∃ c, courses[row]? = some c ∧ r.takes c = true := by
  rw [List.mem_flatMap]
  simp only [Rule.mem_matching, Resolved.takes, List.any_eq_true, Option.any_eq_true]
  constructor
  · rintro ⟨slot, hslot, c, hc, haccepts⟩
    exact ⟨c, hc, slot, hslot, haccepts⟩
  · rintro ⟨c, hc, slot, hslot, haccepts⟩
    exact ⟨slot, hslot, c, hc, haccepts⟩

theorem mem_matched : row ∈ (of r courses).matched
    ↔ ∃ c, courses[row]? = some c ∧ r.isMatched c = true := by
  show row ∈ SortedSet.filter _ _ ↔ _
  rw [SortedSet.mem_filter, SortedSet.mem_ofList, mem_found, Bool.and_eq_true, Bool.not_eq_true',
    ← Bool.not_eq_true, SortedSet.contains_iff]
  show _ ∧ row ∉ (of r courses).forced ∧ _ ↔ _
  rw [mem_forced]
  unfold Resolved.isMatched
  cases courses[row]? with
  | none => simp
  | some c => simp [and_comm, and_assoc]

theorem mem_rows : row ∈ (of r courses).rows
    ↔ ∃ c, courses[row]? = some c ∧ r.isCandidate c = true := by
  unfold rows
  rw [SortedSet.mem_insertAll, SortedSet.mem_toList, mem_matched, mem_forced]
  constructor
  · rintro (⟨c, hc, hm⟩ | ⟨c, hc, hin⟩)
    · exact ⟨c, hc, Resolved.isCandidate_of_isMatched hm⟩
    · exact ⟨c, hc, Resolved.isCandidate_of_isOptedIn hin⟩
  · rintro ⟨c, hc, hcand⟩
    cases hin : r.isOptedIn c.courseId with
    | true => exact Or.inr ⟨c, hc, hin⟩
    | false => exact Or.inl ⟨c, hc, Resolved.isMatched_of_isCandidate hcand hin⟩

theorem toList_rows : (of r courses).rows.toList
    = (courses.zipIdx.filter fun e => r.isCandidate e.1).map (·.2) := by
  apply SortedSet.toList_eq_of_mem_iff (positions_increasing courses _)
  intro row
  rw [mem_rows, mem_positions_iff]

end CandidateRows

namespace Resolved

/-! ### the candidates of a course list -/

theorem candidates_eq (r : Resolved) (courses : List Course) :
    r.candidates courses
      = (courses.filter r.isCandidate).map fun c => ⟨c, r.isOptedIn c.courseId⟩ := by
  have hrows : courses.filter r.isCandidate
      = (courses.zipIdx.filter fun e => r.isCandidate e.1).map (·.1) := by
    conv_lhs => rw [← List.zipIdx_map_fst 0 courses]
    rw [List.filter_map]
    rfl
  show (CandidateRows.of r courses).rows.toList.filterMap _ = _
  rw [CandidateRows.toList_rows, List.filterMap_map, hrows, List.map_map, ← List.filterMap_eq_map]
  apply List.filterMap_congr
  rintro ⟨c, row⟩ he
  have hc : courses[row]? = some c := List.mem_zipIdx_iff_getElem?.mp (List.mem_filter.mp he).1
  show (courses[row]?.map fun c => Candidate.mk c _) = some ⟨c, r.isOptedIn c.courseId⟩
  rw [hc, Option.map_some, CandidateRows.contains_forced r courses hc]

theorem map_course_candidates (r : Resolved) (courses : List Course) (keep : Candidate → Bool) :
    ((r.candidates courses).filter keep).map (·.course)
      = courses.filter fun c => r.isCandidate c && keep ⟨c, r.isOptedIn c.courseId⟩ := by
  rw [candidates_eq, List.filter_map, List.map_map, List.filter_filter]
  simp only [Function.comp_def, Bool.and_comm]
  exact List.map_id _

end Resolved

/-! ### contenders -/

namespace Contender

variable (courses : List Course) (r : Resolved) (u : UniqueId)

/-- the identities of the rows put in by hand (`forced`) or matched by a slot (not `forced`) -/
theorem ids_eq (forced : Bool) :
    ((r.candidates courses).filter (·.forced == forced)).map (·.course.uniqueId)
      = (courses.filter fun c => r.isCandidate c && r.isOptedIn c.courseId == forced).map
          (·.uniqueId) := by
  rw [← r.map_course_candidates courses (·.forced == forced), List.map_map]
  rfl

theorem mem_ids (forced : Bool) :
    u ∈ ((r.candidates courses).filter (·.forced == forced)).map (·.course.uniqueId)
      ↔ ∃ c ∈ courses, c.uniqueId = u ∧ r.isCandidate c = true
          ∧ r.isOptedIn c.courseId = forced := by
  rw [ids_eq, List.mem_map]
  constructor
  · rintro ⟨c, hc, rfl⟩
    obtain ⟨hmem, hand⟩ := List.mem_filter.mp hc
    rw [Bool.and_eq_true, beq_iff_eq] at hand
    exact ⟨c, hmem, rfl, hand⟩
  · rintro ⟨c, hmem, rfl, hand⟩
    refine ⟨c, List.mem_filter.mpr ⟨hmem, ?_⟩, rfl⟩
    rw [Bool.and_eq_true, beq_iff_eq]
    exact hand

theorem contains_forcedIds : (of courses r).forcedIds.contains u = true ↔ r.OptsIn courses u := by
  rw [SortedSet.contains_iff]
  show u ∈ SortedSet.ofList _ ↔ _
  rw [SortedSet.mem_ofList, mem_ids]
  constructor
  · rintro ⟨c, hc, hu, _, hin⟩
    exact ⟨c, hc, hu, hin⟩
  · rintro ⟨c, hc, hu, hin⟩
    exact ⟨c, hc, hu, Resolved.isCandidate_of_isOptedIn hin, hin⟩

theorem mem_matchedIds : u ∈ (of courses r).matchedIds ↔ r.MatchesId courses u := by
  show u ∈ SortedSet.ofList _ ↔ _
  rw [SortedSet.mem_ofList, mem_ids]
  constructor
  · rintro ⟨c, hc, hu, hcand, hin⟩
    exact ⟨c, hc, hu, Resolved.isMatched_of_isCandidate hcand hin⟩
  · rintro ⟨c, hc, hu, hm⟩
    exact ⟨c, hc, hu, Resolved.isCandidate_of_isMatched hm, Resolved.not_isOptedIn_of_isMatched hm⟩

theorem contains_matchedIds :
    (of courses r).matchedIds.contains u = true ↔ r.MatchesId courses u := by
  rw [SortedSet.contains_iff, mem_matchedIds]

theorem dedicated_iff :
    ((of courses r).matchedIds.contains u && (of courses r).matchedIds.size == 1) = true
      ↔ r.MatchesOnly courses u := by
  rw [Bool.and_eq_true, SortedSet.contains_iff, beq_iff_eq]
  constructor
  · rintro ⟨hu, hsize⟩
    refine ⟨(mem_matchedIds courses r u).mp hu, fun c hc hm => ?_⟩
    have hmem := (mem_matchedIds courses r c.uniqueId).mpr ⟨c, hc, rfl, hm⟩
    exact (SortedSet.size_eq_one _ hu).mp hsize c.uniqueId hmem
  · rintro ⟨hu, honly⟩
    have hmem := (mem_matchedIds courses r u).mpr hu
    refine ⟨hmem, (SortedSet.size_eq_one _ hmem).mpr fun v hv => ?_⟩
    obtain ⟨c, hc, rfl, hm⟩ := (mem_matchedIds courses r v).mp hv
    exact honly c hc hm

end Contender

/-! ### a small plan -/

namespace Sample

/-- a requirement of one slot that takes some catalog courses -/
def requirement (name : String) (ids : List CourseId) : Requirement where
  id := ⟨name⟩
  name
  description := ""
  source := ""
  programKind := .college
  programCode := Catalog.universityCode
  fulfillment := .fixed {
    counting := .courses
    progress := .anyCanCount
    slots := [⟨name, .any (ids.map fun k => .leaf (.course k)), 1.0⟩]
    minSlots := none }
  doubleCounting := false

def core : Requirement := requirement "Core" [⟨11⟩]
def elective : Requirement := requirement "Elective" [⟨11⟩, ⟨12⟩]

/-- both requirements match course 11, and only the elective matches course 12 -/
def requirements : List Resolved := [core.resolveDefault, elective.resolveDefault]

def planned (n : UInt64) : PlannedCourse := ⟨n, ⟨n⟩, "CS 1110", 4.0⟩
def course (n : UInt64) : Course := ⟨.numeric n, ⟨n⟩, "CS 1110", 4.0⟩

def courses : List Course := [course 11, course 12]

end Sample

end DegreeProgress
