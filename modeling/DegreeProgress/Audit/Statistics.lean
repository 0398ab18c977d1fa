import DegreeProgress.Audit.Resolved

/-!
# Statistics

How far a list of courses gets a student in one requirement.
-/

namespace DegreeProgress

structure Statistics (α : Type) where
  countedBy : CountedBy
  /-- the progress, which may exceed what is required -/
  fulfilled : α
  required : α
  /-- the courses of each slot -/
  perSlot : List (List Course)
  slotsSatisfied : Nat
  isFulfilled : Bool

namespace Statistics

/-- progress for display, no more than what is required -/
def display (s : Statistics Float) : Float := smaller s.fulfilled s.required

/-! ### the courses of a slot -/

/-- whether a course belongs to a slot: by hand if it was put into any slot, and else by the
checker -/
def belongs (r : Resolved) (slot : Slot) (index : Nat) (c : Course) : Bool :=
  let forced := r.optedInSlots c.courseId
  if forced.isEmpty then slot.checker.accepts c else forced.contains index

def buckets (r : Resolved) (group : SlotGroup) (courses : List Course) : List (List Course) :=
  group.slots.zipIdx.map fun (slot, index) => courses.filter (belongs r slot index)

/-- the first row of every catalog course -/
def firstRows (seen : List CourseId) : List Course → List Course
  | [] => []
  | c :: cs =>
    if seen.contains c.courseId then firstRows seen cs
    else c :: firstRows (c.courseId :: seen) cs

section
variable {α : Type} [Amount α]

def creditSum (courses : List Course) : α := Amount.sum (courses.map (Amount.ofFloat ·.credits))

/-- what the courses of one slot count for -/
def contribution (group : SlotGroup) (bucket : List Course) : α :=
  match group.counting, group.progress with
  | .courses, .anyCanCount => Amount.ofCourses bucket.length
  | .courses, .everyCourseNeeded => Amount.ofCourses (if bucket.isEmpty then 0 else 1)
  | .credits, .anyCanCount => creditSum bucket
  | .credits, .everyCourseNeeded => creditSum (firstRows [] bucket)

/-- a slot is satisfied by at least one course and its minimum count -/
def satisfies (group : SlotGroup) (slot : Slot) (bucket : List Course) : Bool :=
  !bucket.isEmpty &&
    Amount.reaches (contribution (α := α) group bucket) (Amount.ofFloat slot.minCount)

def ofGroup (r : Resolved) (group : SlotGroup) (courses : List Course) : Statistics α :=
  let perSlot := buckets r group courses
  let fulfilled := (perSlot.map (contribution (α := α) group)).foldl Amount.add Amount.zero
  let required := group.required α
  let satisfied := (group.slots.zip perSlot).countP fun (slot, bucket) =>
    satisfies (α := α) group slot bucket
  { countedBy := r.evaluation.countedBy
    fulfilled
    required
    perSlot
    slotsSatisfied := satisfied
    isFulfilled := Amount.reaches fulfilled required && group.minSlots.all (· ≤ satisfied) }

/-- a requirement confirmed by hand shows no progress -/
def selfCheck : Statistics α where
  countedBy := .selfCheck
  fulfilled := Amount.zero
  required := Amount.ofCount 1
  perSlot := []
  slotsSatisfied := 0
  isFulfilled := false

def of (r : Resolved) (courses : List Course) : Statistics α :=
  match r.evaluation with
  | .selfCheck => selfCheck
  | .slots group => ofGroup r group courses

/-- the statistics of a requirement with one slot that asks for nothing but its total -/
def single (countedBy : CountedBy) (fulfilled required : α) (courses : List Course) :
    Statistics α :=
  let isFulfilled := Amount.reaches fulfilled required
  { countedBy, fulfilled, required
    perSlot := [courses]
    slotsSatisfied := if isFulfilled then 1 else 0
    isFulfilled }

end

end Statistics

end DegreeProgress
