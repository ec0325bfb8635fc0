import ContractInterface.Files.Tree
import ContractInterface.Log.Record
import ContractInterface.Settings.Loader
import ContractInterface.Text.Blank

/-! The settings of the command line, from environment variables and a file of them. -/
namespace ContractInterface

/-- Where interfaces are looked for, and what is logged to where. -/
structure Settings where
  abiDirectory : Utf16 := "./abis"
  logLevel : Log.Level := Log.info
  logFile : Option Utf16 := none
  logToStdout : Bool := true
  deriving DecidableEq

namespace Settings

/-- Capital letters of the letters whose capitals are ASCII. Two of them are not ASCII
themselves, the dotless i and the long s. -/
def capital (c : Char) : Char :=
  if c = 'ı' then 'I' else if c = 'ſ' then 'S' else c.toUpper

/-- Blanks that may stand around a number: all but the separators U+001C to U+001F. -/
def isNumberBlank (c : Char) : Bool := Text.isBlank c && !('\x1c' ≤ c && c ≤ '\x1f')

/-- A level by its number in digits of any script, or by its name in either case. -/
def parseLevel (text : Utf16) : Except Failure Log.Level :=
  let all := text.replaced.toList
  let cs := Text.trim all
  if !cs.isEmpty && cs.all Text.isDigit then
    let behind := all.dropWhile isNumberBlank
    let decimals := (behind.takeWhile fun c => (Text.digitValue? c).isSome).length
    if Text.digitLimit < decimals then .error (.digitLimit decimals)
    else
      match Text.number? (behind.reverse.dropWhile isNumberBlank).reverse with
      | some level => .ok (level : Nat)
      | none => .error (.logLevelDigits text)
  else
    match Log.levelOfName? (String.ofList (cs.map capital)) with
    | some level => .ok level
    | none => .error (.logLevelName text)

/-- The words for yes. All other texts mean no. -/
def parseSwitch (text : Utf16) : Bool :=
  let word := String.ofList ((Text.trim text.replaced.toList).map Char.toLower)
  ["1", "true", "yes", "on"].contains word

def abiDirectoryVariable : String := "ABIKIT_ABI_DIR"

def logLevelVariable : String := "ABIKIT_LOG_LEVEL"

def logFileVariable : String := "ABIKIT_LOG_FILENAME"

def logToStdoutVariable : String := "ABIKIT_LOG_STDOUT"

/-- The names of all variables that are settings. -/
def variableNames : List String :=
  [abiDirectoryVariable, logLevelVariable, logFileVariable, logToStdoutVariable]

/-- The level in a set of variables. -/
def levelOf (env : Environment) : Except Failure Log.Level :=
  match env.lookup logLevelVariable with
  | none => .ok Log.info
  | some text => parseLevel text

/-- The settings in a set of variables. -/
def ofEnvironment (env : Environment) : Except Failure Settings := do
  let logLevel ← levelOf env
  .ok {
    abiDirectory := (env.lookup abiDirectoryVariable).getD "./abis"
    logLevel
    logFile := env.lookup logFileVariable
    logToStdout := (env.lookup logToStdoutVariable).elim true parseSwitch }

/-- The settings in the environment and in a file of variables, if there is such a file. -/
def loadBy (loader : Loader) (environment : Environment) (files : FileTree) (path : Utf16) :
    Except Failure Settings := do
  let env ← if files.contains path then loader environment files path else .ok environment
  ofEnvironment env

/-- The path of an interface: the path as given if it is absolute or exists, otherwise the
same path seen from the directory of interfaces. -/
def resolvePath (s : Settings) (files : FileTree) (path : Utf16) : Utf16 :=
  if Path.isAbsolute path || files.contains path then path else Path.join s.abiDirectory path

end Settings

end ContractInterface
