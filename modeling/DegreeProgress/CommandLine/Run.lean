import DegreeProgress.CommandLine.Arguments
import DegreeProgress.CommandLine.TextReport
import DegreeProgress.Data.Report
import DegreeProgress.Document.JsonText
import DegreeProgress.Settings.Example
import DegreeProgress.Storage.Load

/-!
# Running commands

What a command writes and the code it exits with: 0 when it is done, 1 when a file is at fault, and
2 when the command line is.
-/

namespace DegreeProgress

structure Output where
  exitCode : Nat
  out : String
  err : String
  deriving DecidableEq

namespace Output

def ofLines (lines : List String) : Output := ⟨0, String.join (lines.map (· ++ "\n")), ""⟩

def failure (message : String) : Output := ⟨1, "", message ++ "\n"⟩

def version : Output := ofLines ["degree-audit 0.1.0"]

def usageLines : List String :=
  ["Usage: degree-audit <COMMAND>",
   "",
   "Commands:",
   "  report --user <PATH> [--config <PATH>] [--format json|text]",
   "  catalog check [--config <PATH>]",
   "  config validate [--config <PATH>]",
   "  config example"]

def help : Output := ofLines usageLines

def misuse : Output := { help with exitCode := 2, out := "", err := help.out }

end Output

/-- a load error with what was being done -/
structure Failure where
  message : String

namespace Failure

def settings (e : LoadError) : Failure := ⟨s!"failed to load config: {e.message}"⟩
def catalog (e : LoadError) : Failure := ⟨s!"failed to load catalog: {e.message}"⟩
def exams (e : LoadError) : Failure := ⟨s!"failed to load exam table: {e.message}"⟩

def student (p : Path) : LoadError → Failure
  | .unreadable => ⟨s!"failed to read user state: {LoadError.unreadable.message}"⟩
  | e => ⟨s!"invalid user state {p.text}: {e.message}"⟩

end Failure

namespace Command

variable {m : Type → Type} [Monad m]

/-- a step of a command -/
abbrev Running (m : Type → Type) : Type → Type := ExceptT Failure m

def step {α : Type} (failure : LoadError → Failure) (load : ExceptT LoadError m α) :
    Running m α :=
  ExceptT.adapt failure load

def reportOutput (format : ReportFormat) (r : Report Float) : Output :=
  match format with
  | .json => .ofLines [Json.pretty 0 (encode r)]
  | .text => .ofLines r.lines

/-- runs a command up to its output or its first failure -/
def output (s : Surroundings m) : Command → Running m Output
  | report settingsPath studentPath format => do
    let settings ← step .settings (s.loadSettings settingsPath)
    let catalog ← step .catalog (s.loadCatalog settings.catalogFile)
    let exams ← step .exams (s.loadExams settings)
    let student ← step (.student studentPath) (s.load Student studentPath)
    return reportOutput format (Audit.run Float settings.auditOptions catalog exams student).report
  | checkCatalog settingsPath => do
    let settings ← step .settings (s.loadSettings settingsPath)
    let catalog ← step .catalog (s.loadCatalog settings.catalogFile)
    return .ofLines catalog.lines
  | validateSettings settingsPath => do
    let _ ← step .settings (s.loadSettings settingsPath)
    return .ofLines ["config ok"]
  | exampleSettings => return ⟨0, Settings.exampleText, ""⟩

/-- runs a command line -/
def run (s : Surroundings m) (words : List String) : m Output := do
  match parse words with
  | .error .version => return .version
  | .error .help => return .help
  | .error .misuse => return .misuse
  | .ok command =>
    match ← (command.output s).run with
    | .ok output => return output
    | .error failure => return .failure failure.message

end Command

end DegreeProgress
