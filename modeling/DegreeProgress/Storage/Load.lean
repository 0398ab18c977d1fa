import DegreeProgress.Catalog.Compile
import DegreeProgress.Data.Catalog
import DegreeProgress.Data.Settings
import DegreeProgress.Data.Student
import DegreeProgress.Document.Json
import DegreeProgress.Document.Ron
import DegreeProgress.Document.Toml
import DegreeProgress.Storage.Folder

/-!
# Loading files

Settings, catalogs, exam tables and students read from files.  What can be read is given by
`Surroundings`, in any monad: the command line reads a disk, and a `Folder` is a value.
-/

namespace DegreeProgress

/-- what the program reads from outside -/
structure Surroundings (m : Type → Type) where
  /-- the bytes of a file, at least so many of them if it has more than the given number; nothing
  when it cannot be read -/
  readFile : Path → (most : Nat) → m (Option ByteArray)
  /-- the settings file that the environment names -/
  settingsVariable : m (Option String)

/-- the surroundings of a program that runs in a folder -/
def Folder.surroundings (f : Folder) (settingsVariable : Option String) : Surroundings Id where
  readFile p _ := f.read? p
  settingsVariable := settingsVariable

/-! ### errors -/

/-- what is wrong with a file or its path -/
inductive FileFault where
  /-- the path in the environment is too long -/
  | longVariable
  | longPath
  | longPathPart
  | unknownExtension (path : Path)
  | largeSettings
  | settingsNotText
  | largeData (path : Path)
  | dataNotText (path : Path)
  deriving DecidableEq

/-- the largest settings file, in bytes -/
def maxSettingsBytes : Nat := 1048576

/-- the largest data file, in bytes -/
def maxDataBytes : Nat := 8388608

def FileFault.message : FileFault → String
  | longVariable => "config path exceeds max length"
  | longPath => "path exceeds max length"
  | longPathPart => "path component too long"
  | unknownExtension path => s!"unsupported data file extension: {path.text}"
  | largeSettings => "config file exceeds size limit"
  | settingsNotText => "config file must be utf-8"
  | largeData path => s!"{path.text} exceeds size limit of {maxDataBytes} bytes"
  | dataNotText path => s!"{path.text} must be utf-8"

inductive LoadError where
  /-- the file cannot be read -/
  | unreadable
  /-- the text is no document of its format, or not one of the right form -/
  | unparsable
  | file (fault : FileFault)
  | settings (fault : SettingsFault)
  | catalog (error : CatalogError)
  deriving DecidableEq

def LoadError.message : LoadError → String
  | unreadable => "config io error"
  | unparsable => "config parse error"
  | file fault => s!"invalid config: {fault.message}"
  | settings fault => s!"invalid config: {fault.message}"
  | catalog error => s!"invalid catalog: {error.message}"

/-! ### formats -/

inductive DataFormat where
  | json
  | ron
  deriving DecidableEq

namespace DataFormat

def name : DataFormat → String
  | json => "json"
  | ron => "ron"

/-- the format that a path's extension stands for -/
def ofPath (p : Path) : Except LoadError DataFormat :=
  match [json, ron].find? fun format => p.extension?.any (eqIgnoringCase · format.name) with
  | some format => .ok format
  | none => .error (.file (.unknownExtension p))

def decodeText? {α : Type} [Decode α] [HasForm α] (format : DataFormat) (text : String) :
    Option α :=
  match format with
  | json => (Json.read? text).bind (decode .plain)
  | ron => (Ron.read? (formOf α) text).bind (decode .plain)

end DataFormat

namespace Settings

/-- reads a settings file and checks what it says -/
def ofToml (text : String) : Except LoadError Settings :=
  match (Toml.read? text).bind (decode (α := Settings) .loose) with
  | none => .error .unparsable
  | some s =>
    match s.fault? with
    | some fault => .error (.settings fault)
    | none => .ok s

/-- the settings file where nothing names one -/
def defaultPath : Path := ⟨"degree-audit.toml"⟩

end Settings

/-! ### reading -/

def Path.check (p : Path) : Except LoadError Unit :=
  if p.isTooLong then .error (.file .longPath)
  else if p.hasLongPart then .error (.file .longPathPart)
  else .ok ()

/-- a file as text, which may not be larger than `limit` -/
def textOf (limit : Nat) (tooLarge notText : FileFault) (bytes : ByteArray) :
    Except LoadError String :=
  if limit < bytes.size then .error (.file tooLarge)
  else match String.fromUTF8? bytes with
    | some text => .ok text
    | none => .error (.file notText)

namespace Surroundings

variable {m : Type → Type} [Monad m]

abbrev Loading (m : Type → Type) : Type → Type := ExceptT LoadError m

def text (s : Surroundings m) (p : Path) (limit : Nat) (tooLarge notText : FileFault) :
    Loading m String := do
  p.check
  match ← s.readFile p (limit + 1) with
  | some bytes => textOf limit tooLarge notText bytes
  | none => throw .unreadable

def dataText (s : Surroundings m) (p : Path) : Loading m String :=
  s.text p maxDataBytes (.largeData p) (.dataNotText p)

/-- the value in a data file; its extension is looked at first -/
def load (α : Type) [Decode α] [HasForm α] (s : Surroundings m) (p : Path) : Loading m α := do
  let format ← DataFormat.ofPath p
  match format.decodeText? (← s.dataText p) with
  | some x => return x
  | none => throw .unparsable

def loadCatalog (s : Surroundings m) (p : Path) : Loading m Catalog := do
  match Catalog.compile (← s.load Declared.Catalog p) with
  | .ok catalog => return catalog
  | .error e => throw (.catalog e)

/-- the exam table of the settings, empty where they name none -/
def loadExams (s : Surroundings m) (settings : Settings) : Loading m ExamTable :=
  match settings.examsFile? with
  | some p => s.load ExamTable p
  | none => return default

/-- the given settings file, or the one that the environment names, or the default one -/
def settingsPath (s : Surroundings m) (given : Option Path) : Loading m Path := do
  match given with
  | some p => return p
  | none =>
    match ← s.settingsVariable with
    | some value =>
      if Path.isTooLong ⟨value⟩ then throw (.file .longVariable) else return ⟨value⟩
    | none => return Settings.defaultPath

/-- relative paths in a settings file start from its folder -/
def loadSettings (s : Surroundings m) (given : Option Path) : Loading m Settings := do
  let p ← s.settingsPath given
  let settings ← Settings.ofToml (← s.text p maxSettingsBytes .largeSettings .settingsNotText)
  return { settings with baseFolder := p.parent? }

end Surroundings

end DegreeProgress
