import ContractInterface.CommandLine.Run
import ContractInterface.Settings.Dotenv
import Std.Time.Format

/-! The program on the machine that it runs on. All that a run looks at is read before it starts,
and what it has changed is written when it has ended. -/
namespace ContractInterface.CommandLine

/-- The number and the words of an error, unless it is one of a missing file. -/
def systemError? : IO.Error → Option SystemError
  | .alreadyExists _ code reason | .otherError code reason | .resourceBusy code reason
  | .resourceVanished code reason | .unsupportedOperation code reason | .hardwareFault code reason
  | .unsatisfiedConstraints code reason | .illegalOperation code reason
  | .protocolError code reason | .timeExpired code reason | .interrupted _ code reason
  | .invalidArgument _ code reason | .permissionDenied _ code reason
  | .resourceExhausted _ code reason | .inappropriateType _ code reason
  | .noSuchThing _ code reason => some ⟨code.toNat, reason⟩
  | .noFileOrDirectory .. | .unexpectedEof | .userError _ => none

/-- A file that is there and that the system refuses an access to. -/
def refuse (t : FileTree) (path : Utf16) (access : Access) (error : SystemError) : FileTree :=
  { t.insert path (some []) with
    refuses := fun entries a p =>
      if a = access ∧ p = path then some error else t.refuses entries a p }

/-- Take what is at a path into a tree. -/
def lookAt (t : FileTree) (path : Utf16) : IO FileTree := do
  let some name := path.toString? | return t
  match ← (IO.FS.Handle.mk name .read).toBaseIO with
  | .error e => return (systemError? e).elim t (refuse t path .openToRead)
  | .ok handle =>
    match ← handle.readBinToEnd.toBaseIO with
    | .ok bytes => return t.insert path (some bytes.toList)
    | .error (.inappropriateType _ 21 _) =>
      return if (t.node? (t.place path)).isSome then t else t.insert path none
    | .error e => return (systemError? e).elim t (refuse t path .read)

/-- The variables of the given names that are set. -/
def lookUpVariables (names : List String) : IO Environment :=
  names.filterMapM fun name => do return (← IO.getEnv name).map fun s => (name, .ofString s)

/-- The paths that a run with the given settings looks at. -/
def paths (root : Utf16) (settings : Settings) (a : Arguments) : List Utf16 :=
  [a.target, Path.join settings.abiDirectory a.target] ++
    match settings.logFile with
    | none => []
    | some name =>
      let (directory, file) := Log.State.logPlace root name
      [directory, Path.join directory file]

/-- The files that a run with the given arguments looks at, and the environment. -/
def surroundings (a : Arguments) : IO (FileTree × Environment) := do
  let nothing := FileTree.empty (← IO.currentDir).toString
  let .text dotenvFile := a.dotenvFile | return (nothing, [])
  let files ← lookAt nothing dotenvFile
  let named := match files.read dotenvFile with
    | .ok text => Dotenv.names text
    | .error _ => []
  let environment ← lookUpVariables (Dotenv.disablingVariable :: Settings.variableNames ++ named)
  match Settings.loadBy Dotenv.load environment files dotenvFile with
  | .error _ => return (files, environment)
  | .ok settings => return (← (paths nothing.root settings a).foldlM lookAt files, environment)

/-- Write what a run has changed. -/
def keep (change : Utf16 × Option (List UInt8)) : IO Unit := do
  let some path := change.1.toString? | return ()
  match change.2 with
  | none => IO.FS.createDirAll path
  | some bytes => IO.FS.writeBinFile path ⟨bytes.toArray⟩

def usageText : String :=
  "usage: contract-interface [-h] [--dotenv-file FILE] abi TARGET\n" ++
    "       contract-interface [-h] [--dotenv-file FILE] error TARGET\n" ++
    "       contract-interface [-h] [--dotenv-file FILE] eip712 [--primary TYPE] TARGET\n"

/-- Show the usage: on request to those who asked, else as an error. -/
def showUsage (usage : Usage) : IO UInt32 := do
  match usage with
  | .help => IO.print usageText
  | .error => IO.eprint usageText
  return usage.exitCode.toUInt32

end ContractInterface.CommandLine

open ContractInterface CommandLine in
def main (arguments : List String) : IO UInt32 := do
  let arguments := arguments.map Utf16.ofString
  match parse arguments with
  | .error usage => showUsage usage
  | .ok a =>
    let (files, environment) ← surroundings a
    let now ← Std.Time.PlainDateTime.now
    let time := now.format "yy-MM-dd HH:mm:ss"
    match run .standard time environment files .unlimited arguments with
    | .error usage => showUsage usage
    | .ok ending =>
      (files.changes ending.files).forM keep
      IO.print ending.stdout
      match ending.exitCode with
      | .ok code => return code.toUInt32
      | .error failure =>
        IO.eprintln failure.message
        return 1
