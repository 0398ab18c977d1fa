import DegreeProgress.Audit.Basic
import DegreeProgress.Storage.Path
import DegreeProgress.Text.Blank

/-!
# Settings

Where the catalog and the exam table are, and what is asked of every student of a college.  Each
setting has a value that stands in when it is left out.
-/

namespace DegreeProgress

/-- a college that asks for total credits -/
structure CollegeCredits where
  college : String
  eligibility : CreditEligibility
  deriving DecidableEq, Inhabited

structure CreditSettings where
  enabled : Bool
  required : Float
  colleges : List CollegeCredits

structure Settings where
  /-- which messages are logged -/
  logFilter : Option String
  catalogPath : String
  /-- none where exams give no credit -/
  examsPath : Option String
  totalCredits : CreditSettings
  swimTest : Bool
  /-- the folder from which relative paths start -/
  baseFolder : Option Path

namespace CreditSettings

protected def default : CreditSettings where
  enabled := true
  required := CreditPolicy.defaultRequired
  colleges := CreditPolicy.default.colleges.entries.map fun e => ⟨e.1, e.2⟩

instance : Inhabited CreditSettings := ⟨CreditSettings.default⟩

/-- a later entry for a college replaces an earlier one -/
def policy (s : CreditSettings) : CreditPolicy where
  enabled := s.enabled
  required := s.required
  colleges := .ofList (s.colleges.map fun c => (trimmed c.college, c.eligibility))

end CreditSettings

namespace Settings

def defaultCatalogPath : String := "catalog.json"

instance : Inhabited Settings := ⟨none, defaultCatalogPath, none, default, true, none⟩

/-- the place of a data file -/
def dataPath (s : Settings) (value : String) : Path :=
  match s.baseFolder with
  | some base => base.join ⟨trimmed value⟩
  | none => ⟨trimmed value⟩

def catalogFile (s : Settings) : Path := s.dataPath s.catalogPath
def examsFile? (s : Settings) : Option Path := s.examsPath.map s.dataPath

def auditOptions (s : Settings) : AuditOptions := ⟨s.totalCredits.policy, s.swimTest⟩

end Settings

/-! ### faults -/

/-- the settings that hold a path -/
inductive PathSetting where
  | catalog
  | exams
  deriving DecidableEq

def PathSetting.name : PathSetting → String
  | catalog => "catalog.path"
  | exams => "exams.path"

inductive SettingsFault where
  | blankLogFilter
  | longLogFilter
  | blankPath (setting : PathSetting)
  | longPath (setting : PathSetting)
  | longPathPart (setting : PathSetting)
  | requiredNotPositive
  | tooManyColleges
  | blankCollege
  | repeatedCollege (college : String)
  deriving DecidableEq

def SettingsFault.message : SettingsFault → String
  | blankLogFilter => "log_filter must be non-empty"
  | longLogFilter => "log_filter exceeds max length"
  | blankPath setting => s!"{setting.name} must be non-empty"
  | longPath setting => s!"{setting.name} exceeds max length"
  | longPathPart setting => s!"{setting.name} path component too long"
  | requiredNotPositive => "total_credits.required must be a positive number"
  | tooManyColleges => "total_credits.colleges exceeds max entries"
  | blankCollege => "total_credits.colleges.college must be non-empty"
  | repeatedCollege college => s!"total_credits.colleges has duplicate college {college}"

namespace Settings

/-- the longest log filter, in bytes -/
def maxLogFilterBytes : Nat := 1024

/-- how many colleges may ask for total credits -/
def maxColleges : Nat := 64

def logFilterFault? (filter : String) : Option SettingsFault :=
  if isAllBlank filter then some .blankLogFilter
  else if maxLogFilterBytes < filter.utf8ByteSize then some .longLogFilter
  else none

def pathFault? (setting : PathSetting) (value : String) : Option SettingsFault :=
  let p : Path := ⟨trimmed value⟩
  if p.text.isEmpty then some (.blankPath setting)
  else if p.isTooLong then some (.longPath setting)
  else if p.hasLongPart then some (.longPathPart setting)
  else none

/-- the first college that is blank or among the `seen` ones, whose names are trimmed -/
def collegesFault? (seen : List String) : List CollegeCredits → Option SettingsFault
  | [] => none
  | c :: cs =>
    let college := trimmed c.college
    if college.isEmpty then some .blankCollege
    else if seen.contains college then some (.repeatedCollege college)
    else collegesFault? (college :: seen) cs

def creditsFault? (s : CreditSettings) : Option SettingsFault :=
  if !isFinitePositive s.required then some .requiredNotPositive
  else if maxColleges < s.colleges.length then some .tooManyColleges
  else collegesFault? [] s.colleges

/-- the first fault, in the order in which settings are written -/
def fault? (s : Settings) : Option SettingsFault :=
  ((s.logFilter.bind logFilterFault?).or (pathFault? .catalog s.catalogPath)).or <|
    (s.examsPath.bind (pathFault? .exams)).or (creditsFault? s.totalCredits)

end Settings

end DegreeProgress
