import DegreeProgress.Storage.Path

/-!
# Command lines

The commands with their options, and reading them from the words of a command line.  An option is
`--name value` or `--name=value` and may be given once.
-/

namespace DegreeProgress

inductive ReportFormat where
  | json
  | text
  deriving DecidableEq

inductive Command where
  | report (settings : Option Path) (student : Path) (format : ReportFormat)
  | checkCatalog (settings : Option Path)
  | validateSettings (settings : Option Path)
  | exampleSettings
  deriving DecidableEq

/-- why there is no command to run -/
inductive NoCommand where
  | version
  | help
  | misuse
  deriving DecidableEq

namespace Command

inductive OptionName where
  | config
  | user
  | format
  deriving DecidableEq

def OptionName.text : OptionName → String
  | config => "config"
  | user => "user"
  | format => "format"

def formats : List (String × ReportFormat) := [("json", .json), ("text", .text)]

/-- whether an option may have a value -/
def OptionName.admits : OptionName → String → Bool
  | config, value | user, value => !value.isEmpty
  | format, value => (formats.lookup value).isSome

/-- whether a word stands for itself and is no option -/
def isValue (word : String) : Bool :=
  match word.toList with
  | ['-'] => true
  | '-' :: _ => false
  | _ => true

def isHelp (word : String) : Bool := word == "--help" || "-h".toList.isPrefixOf word.toList

def isVersion (word : String) : Bool := word == "--version" || "-V".toList.isPrefixOf word.toList

/-- the name of a long option, and the value that an equals sign gives it -/
def longOption? (word : String) : Option (String × Option String) :=
  match word.toList with
  | '-' :: '-' :: cs =>
    let name := String.ofList (cs.takeWhile (· != '='))
    match cs.dropWhile (· != '=') with
    | [] => some (name, none)
    | _ :: value => some (name, some (String.ofList value))
  | _ => none

abbrev Given : Type := List (OptionName × String)

/-- takes down the value of an option that is not given yet -/
def give (given : Given) (name : OptionName) (value : String) : Except NoCommand Given :=
  if name.admits value && (given.lookup name).isNone then .ok ((name, value) :: given)
  else .error .misuse

/-- reads the words after a command -/
def options (known : List OptionName) (given : Given) : List String → Except NoCommand Given
  | [] => .ok given
  | ["--"] => .ok given
  | word :: words =>
    if isHelp word then .error .help
    else match longOption? word with
      | none => .error .misuse
      | some (text, value) =>
        match known.find? (·.text == text), value, words with
        | some name, some value, words => do options known (← give given name value) words
        | some name, none, value :: words =>
          if isValue value then do options known (← give given name value) words
          else .error .misuse
        | _, _, _ => .error .misuse

def settingsOf (given : Given) : Option Path := (given.lookup .config).map Path.mk

def formatOf (given : Given) : ReportFormat :=
  ((given.lookup .format).bind (formats.lookup ·)).getD .json

/-- a group of commands and the word that picks one of them -/
def group (pick : String → List String → Except NoCommand Command) :
    List String → Except NoCommand Command
  | [] => .error .misuse
  | word :: words => if isHelp word then .error .help else pick word words

def parse : List String → Except NoCommand Command
  | [] => .error .misuse
  | word :: words =>
    if isVersion word then .error .version
    else if isHelp word then .error .help
    else match word with
      | "report" => do
        let given ← options [.config, .user, .format] [] words
        match given.lookup .user with
        | some student => return .report (settingsOf given) ⟨student⟩ (formatOf given)
        | none => throw .misuse
      | "catalog" => group (fun
          | "check", words => do
            return .checkCatalog (settingsOf (← options [.config] [] words))
          | _, _ => .error .misuse) words
      | "config" => group (fun
          | "validate", words => do
            return .validateSettings (settingsOf (← options [.config] [] words))
          | "example", words => do
            let _ ← options [] [] words
            return .exampleSettings
          | _, _ => .error .misuse) words
      | _ => .error .misuse

end Command

end DegreeProgress
