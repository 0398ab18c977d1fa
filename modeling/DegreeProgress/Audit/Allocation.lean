import DegreeProgress.Audit.Graph
import DegreeProgress.Audit.Resolved

/-!
# Allocation of courses

Two graphs over the same courses.  The dangerous one connects every course to every requirement
that could use it.  The safe one connects a course identity to at most one of the requirements
that do not share their courses: to the one it was put into by hand, or to the only one that
matches it, or to the first one that matches nothing else.
-/

namespace DegreeProgress

/-- the rows of a course list that a requirement could use, by their numbers -/
structure CandidateRows where
  /-- matched by a slot, with no override of the row -/
  matched : SortedSet Nat
  /-- put in by hand -/
  forced : SortedSet Nat

namespace CandidateRows

def of (r : Resolved) (courses : List Course) : CandidateRows :=
  let forced := SortedSet.ofList
    ((courses.zipIdx.filter fun (c, _) => r.isOptedIn c.courseId).map (·.2))
  let found := SortedSet.ofList (r.slots.flatMap fun slot => slot.checker.matching courses)
  { matched := found.filter fun row =>
      !forced.contains row && courses[row]?.any fun c => !r.isOptedOut c.courseId
    forced }

/-- all of them, in the order of the list -/
def rows (found : CandidateRows) : SortedSet Nat := found.matched.insertAll found.forced.toList

end CandidateRows

/-- a row of a course list that a requirement could use -/
structure Candidate where
  course : Course
  /-- put in by hand; every other candidate is matched by a slot -/
  forced : Bool

/-- the candidates of a requirement, in the order of the rows -/
def Resolved.candidates (r : Resolved) (courses : List Course) : List Candidate :=
  let found := CandidateRows.of r courses
  found.rows.toList.filterMap fun row =>
    courses[row]?.map fun course => ⟨course, found.forced.contains row⟩

/-- a requirement in the contest for course identities -/
structure Contender where
  requirement : Resolved
  candidates : List Candidate
  /-- the identities of the rows matched by a slot -/
  matchedIds : SortedSet UniqueId
  /-- the identities of the rows put in by hand -/
  forcedIds : SortedSet UniqueId

namespace Contender

def of (courses : List Course) (r : Resolved) : Contender :=
  let candidates := r.candidates courses
  let ids (forced : Bool) := (candidates.filter (·.forced == forced)).map (·.course.uniqueId)
  ⟨r, candidates, .ofList (ids false), .ofList (ids true)⟩

end Contender

namespace Allocation

/-- the positions of the contenders that do not share courses and of which `f` holds -/
def rivals (contenders : List Contender) (f : Contender → Bool) : List Nat :=
  (contenders.zipIdx.filter fun (c, _) => !c.requirement.doubleCounting && f c).map (·.2)

/-- whether the contender at `index` gets an identity that it matches -/
def wins (contenders : List Contender) (index : Nat) (u : UniqueId) : Bool :=
  let forced := rivals contenders (·.forcedIds.contains u)
  let matched := rivals contenders (·.matchedIds.contains u)
  let dedicated := rivals contenders fun c => c.matchedIds.contains u && c.matchedIds.size == 1
  !forced.any (· != index) && (matched.length ≤ 1 || dedicated.head? == some index)

/-- whether the safe graph keeps a candidate of the contender at `index` -/
def keepsSafely (contenders : List Contender) (index : Nat) (c : Contender) (x : Candidate) :
    Bool :=
  c.requirement.doubleCounting || x.forced || wins contenders index x.course.uniqueId

/-- the graph of the candidates that `keep` lets through -/
def graph (contenders : List Contender) (keep : Nat → Contender → Candidate → Bool) :
    CourseGraph :=
  contenders.zipIdx.foldl (fun g (c, index) =>
    (c.candidates.filter (keep index c)).foldl (fun g x => g.addEdge c.requirement.id x.course)
      (g.addRequirement c.requirement.id)) .empty

/-- the identities connected to several requirements, unless all of them share their courses -/
def doubleCountedIds (requirements : List Resolved) (dangerous : CourseGraph) : SortedSet UniqueId :=
  let shares (id : RequirementId) : Bool :=
    ((requirements.reverse.find? (·.id == id)).map (·.doubleCounting)).getD false
  .ofList (dangerous.uniqueIds.filter fun u =>
    let linked := dangerous.requirementsOf u
    2 ≤ linked.length && !linked.all shares)

end Allocation

structure Allocation where
  safe : CourseGraph
  dangerous : CourseGraph
  doubleCounted : SortedSet UniqueId

def Allocation.of (requirements : List Resolved) (courses : List Course) : Allocation :=
  let contenders := requirements.map (Contender.of courses)
  let dangerous := graph contenders fun _ _ _ => true
  { safe := graph contenders (keepsSafely contenders)
    dangerous
    doubleCounted := doubleCountedIds requirements dangerous }

end DegreeProgress
