import ContractInterface.Abi.Load
import ContractInterface.CommandLine.Arguments
import ContractInterface.CommandLine.Report
import ContractInterface.Log.Handler
import ContractInterface.Settings.Dotenv

/-! A run of the program. Settings come first, then the handlers that they ask for, then the
command. What keeps a command from its output is logged, and the exit code is 1. -/
namespace ContractInterface.CommandLine

/-- What a run uses and what is not part of the program: what takes in a file of settings, the names
of types that need no struct, and a hash of texts. -/
structure Libraries where
  loader : Settings.Loader
  elementary : String → Bool
  hash : String → List UInt8

def Libraries.standard : Libraries :=
  ⟨Dotenv.load, TypedData.isElementary, Keccak.hashText⟩

/-- Log a record at the given time. -/
def record (time : String) (r : Log.Record) : Operation Log.State Unit :=
  modify (Log.State.log time r)

/-- Write to standard output, unless that is interrupted. -/
def print (text : String) : Operation Log.State Unit := do
  let s ← get
  set (s.put text)
  match s.outlet s.stdout text with
  | some interruption => throw (.system interruption.error)
  | none => return ()

/-- The name that the argument for it says. -/
def Arguments.primaryName (a : Arguments) : Option (Except Failure String) :=
  a.primary.map fun value => (value.textOr .noStructName).map a.standIns.read

/-- The output of a command. -/
def output (lib : Libraries) (time : String) (settings : Settings) (a : Arguments) :
    Operation Log.State String := do
  match a.command with
  | .abi =>
    let path := settings.resolvePath (← get).files a.target
    record time ⟨Log.debug, "cli", "run", "Reading ABI from " ++ path⟩
    let (abi, loaded) ← Abi.load (← get).files path
    record time loaded
    return "\n".intercalate (Abi.describeBy lib.hash abi)
  | .error =>
    let report ← describeErrorBy lib.hash (a.standIns.read a.target)
    report.indented
  | .typedData =>
    let (report, log) :=
      describeEncodeTypeBy lib.elementary lib.hash (a.standIns.read a.target) a.primaryName
    log.forM fun r => record time { r with message := a.standIns.restore r.message }
    let report ← report
    report.indented

/-- Run a command and print its output. The number is the exit code. Failures of the printing are
not those of the command. -/
def execute (lib : Libraries) (time : String) (settings : Settings) (a : Arguments) :
    Operation Log.State Nat := do
  let text? ← tryCatch (some <$> output lib time settings a) fun failure =>
    if failure.isReported then do
      record time ⟨Log.error, "cli", "main",
        s!"Failed to parse {a.target.quoted}: " ++ a.standIns.restore failure.message⟩
      return none
    else throw failure
  match text? with
  | some text => do
    print (text ++ "\n")
    return 0
  | none => return 1

/-- Run a command with the settings of the environment. A mistake in them is logged by the
handler that the defaults ask for; what the system refuses is no mistake in them. -/
def perform (lib : Libraries) (time : String) (environment : Environment)
    (a : Arguments) : Operation Log.State Nat := do
  let dotenvFile ← a.dotenvFile.textOr .noFileName
  match Settings.loadBy lib.loader environment (← get).files dotenvFile with
  | .error failure =>
    if failure.isValue then
      Log.State.setup none true false {}
      record time ⟨Log.error, "cli", "main", s!"Invalid configuration: {failure.message}"⟩
      return 1
    else throw failure
  | .ok settings =>
    Log.State.setup settings.logFile settings.logToStdout false
      { level := some (.number settings.logLevel) }
    execute lib time settings a

/-- A run that came to its command: the exit code, or a failure that is not reported, and what
was written. -/
structure Ending where
  exitCode : Except Failure Nat
  stdout : String
  files : FileTree

/-- Run the program with the given arguments. All records bear the same time. -/
def run (lib : Libraries) (time : String) (environment : Environment)
    (files : FileTree) (outlet : Log.Outlet) (arguments : List Utf16) : Except Usage Ending := do
  let a ← parse arguments
  let (exitCode, state) :=
    (perform lib time environment a).run.run (Log.State.initial files outlet)
  .ok ⟨exitCode, state.stdout, state.files⟩

end ContractInterface.CommandLine
