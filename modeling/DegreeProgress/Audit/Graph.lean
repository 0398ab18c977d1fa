import DegreeProgress.Course.Basic
import DegreeProgress.Sorted.Map

/-!
# Course graphs

Which courses are connected to which requirements.  An edge is known by its requirement and by the
two identities of its course; a second edge with the same three is not added.
-/

namespace DegreeProgress

structure Edge where
  requirement : RequirementId
  uniqueId : UniqueId
  courseId : CourseId
  deriving DecidableEq

structure CourseGraph where
  /-- the courses of each requirement, in the order of their edges -/
  courses : SortedMap RequirementId (List Course) := {}
  /-- the requirements of each course identity, in the order of their first edges -/
  requirements : SortedMap UniqueId (List RequirementId) := {}
  edges : List Edge := []

namespace CourseGraph

def empty : CourseGraph := {}

def edge (requirement : RequirementId) (c : Course) : Edge := ⟨requirement, c.uniqueId, c.courseId⟩

def containsEdge (g : CourseGraph) (requirement : RequirementId) (c : Course) : Bool :=
  g.edges.contains (edge requirement c)

def coursesOf (g : CourseGraph) (requirement : RequirementId) : List Course :=
  (g.courses.get? requirement).getD []

def requirementsOf (g : CourseGraph) (u : UniqueId) : List RequirementId :=
  (g.requirements.get? u).getD []

/-- the identities with an edge, in order -/
def uniqueIds (g : CourseGraph) : List UniqueId := g.requirements.keys

def edgeCount (g : CourseGraph) : Nat := g.edges.length

/-- makes room for a requirement without connecting it -/
def addRequirement (g : CourseGraph) (requirement : RequirementId) : CourseGraph :=
  { g with courses := g.courses.alter requirement fun
    | some courses => courses
    | none => [] }

/-- connects a course, unless the edge is there already -/
def addEdge (g : CourseGraph) (requirement : RequirementId) (c : Course) : CourseGraph :=
  if g.containsEdge requirement c then g
  else {
    courses := g.courses.alter requirement fun
      | some courses => courses ++ [c]
      | none => [c]
    requirements := g.requirements.alter c.uniqueId fun
      | some ids => if ids.contains requirement then ids else ids ++ [requirement]
      | none => [requirement]
    edges := edge requirement c :: g.edges }

/-- connects a course, and tells whether its edge is new -/
def tryAddEdge (g : CourseGraph) (requirement : RequirementId) (c : Course) : CourseGraph × Bool :=
  (g.addEdge requirement c, !g.containsEdge requirement c)

end CourseGraph

end DegreeProgress
