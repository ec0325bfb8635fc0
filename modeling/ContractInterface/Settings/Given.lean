import ContractInterface.Json.Value
import ContractInterface.Settings.Basic

/-! Settings that are given by name. They may be of any type: a level or a switch that is a text is
read, and all else is kept as it is. Those of the environment are given in this way, all of them as
texts. -/
namespace ContractInterface.Settings

/-- Settings as they are kept. -/
structure Given where
  abiDirectory : Json
  logLevel : Json
  logFile : Json
  logToStdout : Json

def given (s : Settings) : Given :=
  ⟨.string s.abiDirectory, .int s.logLevel, .ofOption .string s.logFile, .bool s.logToStdout⟩

namespace Given

/-- The names of the settings, with the variables that give them. -/
def fieldVariables : List (String × String) :=
  [("abi_dir", abiDirectoryVariable), ("log_level", logLevelVariable),
    ("log_filename", logFileVariable), ("log_stdout", logToStdoutVariable)]

def isKnown (name : Utf16) : Bool := fieldVariables.any fun v => name == (v.1 : Utf16)

def readLevel : Json → Except Failure Json
  | .string text => (parseLevel text).map .int
  | x => .ok x

def readSwitch : Json → Json
  | .string text => .bool (parseSwitch text)
  | x => x

/-- Keep what is given, and defaults for the rest. There are no settings of other names. -/
def ofFields (fields : List (Utf16 × Json)) : Except Failure Given :=
  match fields.find? fun f => !isKnown f.1 with
  | some (name, _) => .error (.unexpectedArgument name)
  | none => do
    let default : Given := given {}
    let logLevel ← readLevel ((Json.field? fields "log_level").getD default.logLevel)
    .ok {
      abiDirectory := (Json.field? fields "abi_dir").getD default.abiDirectory
      logLevel
      logFile := (Json.field? fields "log_filename").getD default.logFile
      logToStdout := readSwitch ((Json.field? fields "log_stdout").getD default.logToStdout) }

/-- A setting by its name, if the environment has the variable for it. -/
def fieldOf (env : Environment) (name variableName : String) : List (Utf16 × Json) :=
  ((env.lookup variableName).map fun text => ((name : Utf16), Json.string text)).toList

/-- What the environment gives. -/
def fieldsOf (env : Environment) : List (Utf16 × Json) :=
  fieldVariables.flatMap fun v => fieldOf env v.1 v.2

end Given

end ContractInterface.Settings
