import DegreeProgress.Document.Basic
import DegreeProgress.Settings.Basic

/-!
# Settings as documents

The form of the settings file.  A field that is not known is refused; the base folder is no field.
-/

namespace DegreeProgress

instance : Enumeration CreditEligibility where
  values := [.excludePE, .excludePEAndIntro, .excludePEIntroAndExam]
  name
    | .excludePE => "exclude-pe"
    | .excludePEAndIntro => "exclude-pe-and-intro"
    | .excludePEIntroAndExam => "exclude-pe-intro-and-exam"

instance : Encode CollegeCredits := ⟨fun c => .object
  [("college", encode c.college), ("eligibility", encode c.eligibility)]⟩

instance : Decode CollegeCredits := ⟨fun dialect d => do
  let fs ← d.fields? dialect ["college", "eligibility"] true
  return {
    college := ← Document.required dialect fs "college"
    eligibility := ← Document.required dialect fs "eligibility" }⟩

namespace CreditSettings

def fieldNames : List String := ["enabled", "required", "colleges"]

instance : Encode CreditSettings := ⟨fun s => .object
  [("enabled", encode s.enabled), ("required", encode s.required),
   ("colleges", encode s.colleges)]⟩

instance : Decode CreditSettings := ⟨fun dialect d => do
  let fs ← d.fields? dialect fieldNames true
  return {
    enabled := ← Document.optional dialect fs "enabled" true
    required := ← Document.optional dialect fs "required" CreditPolicy.defaultRequired
    colleges := ← Document.optional dialect fs "colleges" CreditSettings.default.colleges }⟩

end CreditSettings

namespace Settings

/-- a section of the settings -/
structure FileSection where
  path : String

instance : Encode FileSection := ⟨fun s => .object [("path", encode s.path)]⟩
instance : Decode FileSection := ⟨fun dialect d => do
  let fs ← d.fields? dialect ["path"] true
  return ⟨← Document.required dialect fs "path"⟩⟩

/-- a section with nothing but a switch -/
structure SwitchSection where
  enabled : Bool

instance : Encode SwitchSection := ⟨fun s => .object [("enabled", encode s.enabled)]⟩
instance : Decode SwitchSection := ⟨fun dialect d => do
  let fs ← d.fields? dialect ["enabled"] true
  return ⟨← Document.optional dialect fs "enabled" true⟩⟩

def fieldNames : List String := ["log_filter", "catalog", "exams", "total_credits", "swim_test"]

instance : Encode Settings := ⟨fun s => .object
  [("log_filter", encode s.logFilter), ("catalog", encode (FileSection.mk s.catalogPath)),
   ("exams", encode (s.examsPath.map FileSection.mk)), ("total_credits", encode s.totalCredits),
   ("swim_test", encode (SwitchSection.mk s.swimTest))]⟩

instance : Decode Settings := ⟨fun dialect d => do
  let fs ← d.fields? dialect fieldNames true
  let catalog : FileSection ← Document.optional dialect fs "catalog" ⟨defaultCatalogPath⟩
  let exams : Option FileSection ← Document.optional dialect fs "exams" none
  let swimTest : SwitchSection ← Document.optional dialect fs "swim_test" ⟨true⟩
  return {
    logFilter := ← Document.optional dialect fs "log_filter" none
    catalogPath := catalog.path
    examsPath := exams.map (·.path)
    totalCredits := ← Document.optional dialect fs "total_credits" default
    swimTest := swimTest.enabled
    baseFolder := none }⟩

end Settings

end DegreeProgress
