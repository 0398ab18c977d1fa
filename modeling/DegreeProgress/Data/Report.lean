import DegreeProgress.Audit.Report
import DegreeProgress.Data.Course

/-!
# Reports as documents

The written form of a report.  A requirement without options names no chosen one, and one that asks
for all of its slots gives no least number of them.
-/

namespace DegreeProgress

instance : Enumeration ProgramKind where
  values := [.college, .major, .minor, .grad]
  name := ProgramKind.name

instance : Enumeration CountedBy where
  values := [.courses, .credits, .selfCheck]
  name
    | .courses => "courses"
    | .credits => "credits"
    | .selfCheck => "self-check"

/-- a field that is left out where there is no value -/
def encodeField {α : Type} [Encode α] (key : String) (x : Option α) : List (String × Document) :=
  (x.map fun x => (key, encode x)).toList

namespace Statistics

def fieldNames : List String :=
  ["fulfilled_by", "min_count_fulfilled", "min_count_required", "per_slot_courses",
   "slots_satisfied", "is_fulfilled"]

instance : Encode (Statistics Float) := ⟨fun s => .object
  [("fulfilled_by", encode s.countedBy), ("min_count_fulfilled", encode s.fulfilled),
   ("min_count_required", encode s.required), ("per_slot_courses", encode s.perSlot),
   ("slots_satisfied", encode s.slotsSatisfied), ("is_fulfilled", encode s.isFulfilled)]⟩

instance : Decode (Statistics Float) := ⟨fun dialect d => do
  let fs ← d.fields? dialect fieldNames false
  let satisfied : UInt64 ← Document.required dialect fs "slots_satisfied"
  return {
    countedBy := ← Document.required dialect fs "fulfilled_by"
    fulfilled := ← Document.required dialect fs "min_count_fulfilled"
    required := ← Document.required dialect fs "min_count_required"
    perSlot := ← Document.required dialect fs "per_slot_courses"
    slotsSatisfied := satisfied.toNat
    isFulfilled := ← Document.required dialect fs "is_fulfilled" }⟩

end Statistics

namespace Bounds

variable {β : Type}

def fieldNames : List String := ["safe", "dangerous"]

instance [Encode β] : Encode (Bounds β) := ⟨fun b => .object
  [("safe", encode b.safe), ("dangerous", encode b.dangerous)]⟩

instance [Decode β] : Decode (Bounds β) := ⟨fun dialect d => do
  let fs ← d.fields? dialect fieldNames false
  return {
    safe := ← Document.required dialect fs "safe"
    dangerous := ← Document.required dialect fs "dangerous" }⟩

end Bounds

namespace Summary

def fieldNames : List String :=
  ["id", "name", "description", "source", "source_type", "source_specific_name", "fulfilled_by",
   "chosen_option", "slot_names", "per_slot_min_count", "min_number_of_slots",
   "allow_course_double_counting"]

instance : Encode Summary := ⟨fun s => .object <|
  [("id", encode s.id), ("name", encode s.name), ("description", encode s.description),
   ("source", encode s.source), ("source_type", encode s.programKind),
   ("source_specific_name", encode s.programCode), ("fulfilled_by", encode s.countedBy)] ++
  encodeField "chosen_option" s.chosenOption ++
  [("slot_names", encode s.slotNames), ("per_slot_min_count", encode s.minCounts)] ++
  encodeField "min_number_of_slots" s.minSlots ++
  [("allow_course_double_counting", encode s.doubleCounting)]⟩

instance : Decode Summary := ⟨fun dialect d => do
  let fs ← d.fields? dialect fieldNames false
  let minSlots : Option UInt64 ← Document.optional dialect fs "min_number_of_slots" none
  return {
    id := ← Document.required dialect fs "id"
    name := ← Document.required dialect fs "name"
    description := ← Document.required dialect fs "description"
    source := ← Document.required dialect fs "source"
    programKind := ← Document.required dialect fs "source_type"
    programCode := ← Document.required dialect fs "source_specific_name"
    countedBy := ← Document.required dialect fs "fulfilled_by"
    chosenOption := ← Document.optional dialect fs "chosen_option" none
    slotNames := ← Document.required dialect fs "slot_names"
    minCounts := ← Document.required dialect fs "per_slot_min_count"
    minSlots := minSlots.map UInt64.toNat
    doubleCounting := ← Document.required dialect fs "allow_course_double_counting" }⟩

end Summary

namespace ReportEntry

def fieldNames : List String := ["requirement", "fulfillment"]

instance : Encode (ReportEntry Float) := ⟨fun e => .object
  [("requirement", encode e.requirement), ("fulfillment", encode e.fulfillment)]⟩

instance : Decode (ReportEntry Float) := ⟨fun dialect d => do
  let fs ← d.fields? dialect fieldNames false
  return {
    requirement := ← Document.required dialect fs "requirement"
    fulfillment := ← Document.required dialect fs "fulfillment" }⟩

end ReportEntry

namespace ReportGroup

def fieldNames : List String := ["group", "specific", "requirements"]

instance : Encode (ReportGroup Float) := ⟨fun g => .object
  [("group", encode g.kind), ("specific", encode g.code), ("requirements", encode g.entries)]⟩

instance : Decode (ReportGroup Float) := ⟨fun dialect d => do
  let fs ← d.fields? dialect fieldNames false
  return {
    kind := ← Document.required dialect fs "group"
    code := ← Document.required dialect fs "specific"
    entries := ← Document.required dialect fs "requirements" }⟩

end ReportGroup

namespace Report

def fieldNames : List String := ["groups", "double_counted_course_unique_ids"]

instance : Encode (Report Float) := ⟨fun r => .object
  [("groups", encode r.groups),
   ("double_counted_course_unique_ids", encode r.doubleCounted.toList)]⟩

instance : Decode (Report Float) := ⟨fun dialect d => do
  let fs ← d.fields? dialect fieldNames false
  let ids : List UniqueId ← Document.required dialect fs "double_counted_course_unique_ids"
  return {
    groups := ← Document.required dialect fs "groups"
    doubleCounted := .ofList ids }⟩

end Report

end DegreeProgress
