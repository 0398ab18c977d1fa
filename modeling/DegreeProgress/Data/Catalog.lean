import DegreeProgress.Catalog.Declared
import DegreeProgress.Data.Course

/-!
# Declared catalogs as documents

The form of the catalog file.  What a requirement leaves out is empty; an option has to state its
slots.
-/

namespace DegreeProgress

instance : Enumeration Counting where
  values := [.courses, .credits]
  name
    | .courses => "courses"
    | .credits => "credits"

instance : Enumeration Progress where
  values := [.anyCanCount, .everyCourseNeeded]
  name
    | .anyCanCount => "any-can-count"
    | .everyCourseNeeded => "every-course-needed"

instance : Enumeration Declared.FulfilledBy where
  values := [.courses, .credits, .selfCheck, .toggleable]
  name
    | .courses => "courses"
    | .credits => "credits"
    | .selfCheck => "self-check"
    | .toggleable => "toggleable"

/-! ### declared catalogs -/

namespace Declared

namespace Slots

/-- the least number of satisfied slots, where one is given -/
def minSlots? (dialect : Dialect) (fs : List (String × Document)) : Option (Option Nat) := do
  let min : Option UInt64 ← Document.optional dialect fs "min_number_of_slots" none
  return min.map UInt64.toNat

def members (s : Slots) : List (String × Document) :=
  [("checkers", encode s.checkers), ("per_slot_min_count", encode s.minCounts),
   ("slot_names", encode s.names), ("sub_requirement_progress", encode s.progress),
   ("min_number_of_slots", encode s.minSlots)]

/-- the forms of the members -/
def forms : List Form :=
  [formOf (List CheckerSource), formOf (List Float), formOf (List String), formOf Progress,
   formOf (Option UInt64)]

end Slots

namespace Choice

def fieldNames : List String :=
  ["name", "description", "counting", "checkers", "per_slot_min_count", "slot_names",
   "sub_requirement_progress", "min_number_of_slots"]

instance : Encode Choice := ⟨fun c => .object <|
  [("name", encode c.name), ("description", encode c.description),
   ("counting", encode c.counting)] ++ c.slots.members⟩

instance : Decode Choice := ⟨fun dialect d => do
  let fs ← d.fields? dialect fieldNames false
  return {
    name := ← Document.required dialect fs "name"
    description := ← Document.optional dialect fs "description" ""
    counting := ← Document.required dialect fs "counting"
    slots := {
      checkers := ← Document.required dialect fs "checkers"
      minCounts := ← Document.required dialect fs "per_slot_min_count"
      names := ← Document.required dialect fs "slot_names"
      progress := ← Document.optional dialect fs "sub_requirement_progress" .anyCanCount
      minSlots := ← Slots.minSlots? dialect fs } }⟩

instance : HasForm Choice := ⟨.record "OptionDefinition" <| fieldNames.zip <|
  [formOf String, formOf String, formOf Counting] ++ Slots.forms⟩

end Choice

namespace Requirement

def fieldNames : List String :=
  ["name", "description", "source", "fulfilled_by", "checkers", "per_slot_min_count",
   "slot_names", "sub_requirement_progress", "min_number_of_slots", "options",
   "allow_course_double_counting"]

instance : Encode Requirement := ⟨fun r => .object <|
  [("name", encode r.name), ("description", encode r.description), ("source", encode r.source),
   ("fulfilled_by", encode r.fulfilledBy)] ++ r.slots.members ++
  [("options", encode r.choices), ("allow_course_double_counting", encode r.doubleCounting)]⟩

instance : Decode Requirement := ⟨fun dialect d => do
  let fs ← d.fields? dialect fieldNames false
  return {
    name := ← Document.required dialect fs "name"
    description := ← Document.optional dialect fs "description" ""
    source := ← Document.optional dialect fs "source" ""
    fulfilledBy := ← Document.required dialect fs "fulfilled_by"
    slots := {
      checkers := ← Document.optional dialect fs "checkers" []
      minCounts := ← Document.optional dialect fs "per_slot_min_count" []
      names := ← Document.optional dialect fs "slot_names" []
      progress := ← Document.optional dialect fs "sub_requirement_progress" .anyCanCount
      minSlots := ← Slots.minSlots? dialect fs }
    choices := ← Document.optional dialect fs "options" []
    doubleCounting := ← Document.optional dialect fs "allow_course_double_counting" false }⟩

instance : HasForm Requirement := ⟨.record "RequirementDefinition" <| fieldNames.zip <|
  [formOf String, formOf String, formOf String, formOf FulfilledBy] ++ Slots.forms ++
  [formOf (List Choice), formOf Bool]⟩

end Requirement

namespace Program

def fieldNames : List String := ["name", "schools", "requirements"]

instance : Encode Program := ⟨fun p => .object
  [("name", encode p.name), ("schools", encode p.schools),
   ("requirements", encode p.requirements)]⟩

instance : Decode Program := ⟨fun dialect d => do
  let fs ← d.fields? dialect fieldNames false
  return {
    name := ← Document.required dialect fs "name"
    schools := ← Document.optional dialect fs "schools" []
    requirements := ← Document.optional dialect fs "requirements" [] }⟩

instance : HasForm Program := ⟨.record "ProgramDefinition" <|
  fieldNames.zip [formOf String, formOf (List String), formOf (List Requirement)]⟩

end Program

namespace Catalog

def fieldNames : List String := ["university", "colleges", "majors", "minors", "grad"]

instance : Encode Catalog := ⟨fun c => .object
  [("university", encode c.university), ("colleges", encode c.colleges),
   ("majors", encode c.majors), ("minors", encode c.minors), ("grad", encode c.grad)]⟩

instance : Decode Catalog := ⟨fun dialect d => do
  let fs ← d.fields? dialect fieldNames false
  return {
    university := ← Document.optional dialect fs "university" []
    colleges := ← Document.optional dialect fs "colleges" {}
    majors := ← Document.optional dialect fs "majors" {}
    minors := ← Document.optional dialect fs "minors" {}
    grad := ← Document.optional dialect fs "grad" {} }⟩

instance : HasForm Catalog :=
  let programs := formOf (SortedMap String Program)
  ⟨.record "CatalogDefinition" <|
    fieldNames.zip [formOf (List Requirement), programs, programs, programs, programs]⟩

end Catalog

end Declared

end DegreeProgress
