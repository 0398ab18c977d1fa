import DegreeProgress.Proofs.Allocation.Graphs
import DegreeProgress.Proofs.FirstRows

/-!
# The rows of the dangerous graph

The dangerous graph connects a requirement to every row that it could use, whatever the other
requirements are.  Of several such rows with the same identities it has the first.

* `Resolved.UsesRow`             the row is such a first candidate;
* `Allocation.rows_dangerous`    the courses of a requirement are these rows, in order; and no row
                                 number lies beyond the list.
-/

namespace DegreeProgress

namespace CandidateRows

variable {courses : List Course} {row : Nat}

theorem lt_length_of_mem_matching {slot : Slot} (h : row ∈ slot.checker.matching courses) :
    row < courses.length := by
  have hsome := (Rule.mem_matching slot.checker courses row).mp h
  obtain ⟨c, hc, _⟩ := (Option.any_eq_true _ _).mp hsome
  exact (List.getElem?_eq_some_iff.mp hc).1

theorem lt_length_of_mem_rows {r : Resolved} (h : row ∈ (of r courses).rows) :
    row < courses.length := by
  obtain ⟨c, hc, _⟩ := (mem_rows r courses row).mp h
  exact (List.getElem?_eq_some_iff.mp hc).1

end CandidateRows

namespace Resolved

variable (r : Resolved) (courses : List Course)

/-- the row is a candidate, and no candidate before it has its identities -/
def UsesRow (row : Nat) : Prop :=
  ∃ c, courses[row]? = some c ∧ r.isCandidate c = true ∧
    ∀ earlier < row, ∀ c', courses[earlier]? = some c' → r.isCandidate c' = true →
      c'.identities ≠ c.identities

def usedRows : SortedSet Nat where
  toList := (numberedFirst Course.identities r.isCandidate courses).map (·.2)
  sorted := positions_increasing courses _

theorem mem_usedRows (row : Nat) : row ∈ r.usedRows courses ↔ r.UsesRow courses row := by
  show row ∈ (numberedFirst Course.identities r.isCandidate courses).map (·.2) ↔ _
  rw [List.mem_map]
  constructor
  · rintro ⟨⟨c, i⟩, he, rfl⟩
    exact ⟨c, mem_numberedFirst.mp he⟩
  · rintro ⟨c, hc⟩
    exact ⟨(c, row), mem_numberedFirst.mpr hc, rfl⟩

theorem map_getElem?_usedRows : (r.usedRows courses).toList.map (courses[·]?)
    = (firstPer Course.identities (courses.filter r.isCandidate)).map some := by
  show ((numberedFirst Course.identities r.isCandidate courses).map (·.2)).map (courses[·]?) = _
  rw [← map_fst_numberedFirst, List.map_map, List.map_map]
  exact List.map_congr_left fun e he => (mem_numberedFirst.mp he).1

end Resolved

namespace Allocation

/-- **The dangerous graph is the candidate relation.**  Its courses for a requirement are the rows
that the requirement could use, in their order, and of rows with the same identities the first.
Other requirements have no say in it, and no row number that is met lies beyond the list. -/
theorem rows_dangerous {requirements : List Resolved} (hids : (requirements.map (·.id)).Nodup)
    {r : Resolved} (hr : r ∈ requirements) (courses : List Course) :
    let connected := (Allocation.of requirements courses).dangerous.coursesOf r.id
    (∃ rows : SortedSet Nat, (∀ row, row ∈ rows ↔ r.UsesRow courses row) ∧
      rows.toList.map (courses[·]?) = connected.map some) ∧
    (∀ others, (others.map (·.id)).Nodup → r ∈ others →
      (Allocation.of others courses).dangerous.coursesOf r.id = connected) ∧
    (∀ slot ∈ r.slots, ∀ row ∈ slot.checker.matching courses, row < courses.length) ∧
    ∀ row ∈ (CandidateRows.of r courses).rows, row < courses.length := by
  intro connected
  have hconnected : connected = firstPer Course.identities (courses.filter r.isCandidate) :=
    coursesOf_dangerous courses hids hr
  refine ⟨⟨r.usedRows courses, r.mem_usedRows courses, ?_⟩, ?_, ?_, ?_⟩
  · rw [r.map_getElem?_usedRows, hconnected]
  · intro others hothers hr'
    rw [hconnected, coursesOf_dangerous courses hothers hr']
  · exact fun slot _ row h => CandidateRows.lt_length_of_mem_matching h
  · exact fun row h => CandidateRows.lt_length_of_mem_rows h

end Allocation

namespace Sample

/-- the plan with its first course once more -/
def repeated : List Course := courses ++ [course 11]

end Sample

namespace Allocation

open Sample

/-- the elective is connected to the first two rows of the plan, and not to the repeated one -/
theorem rows_dangerous_repeated :
    (requirements.map (·.id)).Nodup ∧ elective.resolveDefault ∈ requirements ∧
    elective.resolveDefault.usedRows repeated = .ofList [0, 1] ∧
    ∃ rows : SortedSet Nat,
      (∀ row, row ∈ rows ↔ elective.resolveDefault.UsesRow repeated row) ∧
      rows.toList.map (repeated[·]?)
        = ((Allocation.of requirements repeated).dangerous.coursesOf ⟨"Elective"⟩).map some := by
  have hids : (requirements.map (·.id)).Nodup := by decide
  have hr : elective.resolveDefault ∈ requirements := List.mem_cons_of_mem _ List.mem_cons_self
  exact ⟨hids, hr, by decide, (rows_dangerous hids hr repeated).1⟩

end Allocation

end DegreeProgress
