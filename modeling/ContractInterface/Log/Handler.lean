import ContractInterface.Failure
import ContractInterface.Files.Tree
import ContractInterface.Log.Format

/-! Where log records go. A record reaches a handler if its level is positive, at least that of the
logger and at least that of the handler. -/
namespace ContractInterface.Log

inductive Sink
  | stdout
  | stderr
  | file (path : Utf16) (maxBytes : Int)
  deriving DecidableEq

structure Handler where
  sink : Sink
  level : Level
  format : String
  timeFormat : Option String
  /-- The bytes written so far. -/
  written : Nat := 0
  deriving DecidableEq

/-- How a write is cut short: the error, and how many characters were taken before it. -/
structure Interruption where
  error : SystemError
  taken : Nat

/-- How standard output takes a text, by what was written to it before: all of it, or until it is
interrupted. -/
abbrev Outlet := String → String → Option Interruption

namespace Outlet

/-- Standard output that is never interrupted. -/
def unlimited : Outlet := fun _ _ => none

/-- What is taken of a text. -/
def taken (o : Outlet) (before text : String) : String :=
  match o before text with
  | none => text
  | some i => String.ofList (text.toList.take i.taken)

end Outlet

/-- The logger with all that it writes to. -/
structure State where
  level : Level
  handlers : List Handler
  files : FileTree
  stdout : String
  outlet : Outlet

/-- The size up to which a log file may grow where none is given. -/
def defaultMaxBytes : Int := 2000000

/-- Options of a handler. What is not given has a default. -/
structure Options where
  format : Option String := none
  level : Option LevelChoice := none
  maxBytes : Option Int := none

namespace Options

/-- The format to use. An empty one counts as none. -/
def formatText (o : Options) : String :=
  match o.format with
  | none | some "" => defaultFormat
  | some s => s

def levelOrInfo (o : Options) : Except Failure Level :=
  match o.level with
  | none => .ok info
  | some (.number level) => .ok level
  | some (.name name) =>
    match levelOfName? name with
    | some level => .ok level
    | none => .error (.unknownLevel name)

end Options

namespace State

/-- A logger without handlers in a tree of files. -/
def initial (files : FileTree) (outlet : Outlet) : State := ⟨warning, [], files, "", outlet⟩

/-- Write to standard output what it takes of a text. -/
def put (text : String) (s : State) : State :=
  { s with stdout := s.stdout ++ s.outlet.taken s.stdout text }

def attach (sink : Sink) (o : Options) : Operation State Handler := do
  let level ← o.levelOrInfo
  if Format.isValid o.formatText.toList then
    let h : Handler := ⟨sink, level, o.formatText, some Log.timeFormat, 0⟩
    modify fun s => { s with handlers := s.handlers ++ [h] }
    return h
  else throw (.logFormat o.formatText)

/-- Attach a handler that writes to standard output. -/
def addStdoutHandler (o : Options) : Operation State Handler := attach .stdout o

/-- Ask the system for the working directory, from which a path may have to be seen. -/
def findRoot (needed : Bool) : Operation State Unit := do
  let files := (← get).files
  match needed, files.refusal? .workingDirectory "" with
  | true, some error => throw (.system error)
  | _, _ => return ()

/-- The directory and the name of a log file. The name ends in `.log`, and without a directory
the file lies in `.logging`. -/
def logPlace (root name : Utf16) : Utf16 × Utf16 :=
  let (directory, file) := Path.split name
  let ending : Utf16 := ".log"
  let file := if ending.points.isSuffixOf file.points then file else file ++ ending
  (if directory.isEmpty then Path.join root ".logging" else directory, file)

/-- Create the directory of a log file and give the file's path. -/
def prepareLogPath (name : Utf16) : Operation State Utf16 := do
  findRoot (Path.split name).1.isEmpty
  let files := (← get).files
  let (directory, file) := logPlace files.root name
  let (files, error) := files.makeDirectories directory
  modify fun s => { s with files }
  match error with
  | some e => throw (.file e)
  | none => return Path.join directory file

/-- Attach a handler that writes to a file. A file with a limit on its size keeps its text;
without one it starts empty. -/
def addFileHandler (name : Utf16) (o : Options) : Operation State Handler := do
  let path ← prepareLogPath name
  findRoot (!Path.isAbsolute path)
  let path := (← get).files.absolute path
  let maxBytes := o.maxBytes.getD defaultMaxBytes
  match (← get).files.openFile path (0 < maxBytes) with
  | .error e => throw (.file e)
  | .ok files =>
    modify fun s => { s with files }
    attach (.file path maxBytes) o

def removeHandlers (s : State) : State := { s with handlers := [] }

/-- The least level of the handlers, or the one that is asked for where there are none. -/
def leastLevel (handlers : List Handler) (o : Options) : Except Failure Level :=
  match handlers with
  | [] => o.levelOrInfo
  | h :: hs => .ok (hs.foldl (fun l h => min l h.level) h.level)

/-- Attach the handlers that are asked for and let the logger pass what the most verbose
handler wants. -/
def setup (file : Option Utf16) (toStdout keepHandlers : Bool) (o : Options) :
    Operation State Unit := do
  if !keepHandlers then modify removeHandlers
  if toStdout then discard (addStdoutHandler o)
  if let some name := file then discard (addFileHandler name o)
  let level ← leastLevel (← get).handlers o
  modify fun s => { s with level }

/-- Detach all handlers and, if asked, delete the files they wrote. -/
def close (deleteFiles : Bool) (s : State) : State :=
  let paths := s.handlers.filterMap fun h =>
    match h.sink with
    | .file path _ => some path
    | _ => none
  let files := if deleteFiles then paths.foldl FileTree.remove s.files else s.files
  { s with handlers := [], files }

/-- Write text where a handler writes. What it has written already says where it goes on in a file
without a limit, even if others write there too; a file with a limit grows at its end. -/
def write (h : Handler) (text : String) (s : State) : State :=
  match h.sink with
  | .stdout => s.put text
  | .stderr => s
  | .file path maxBytes =>
    if 0 < maxBytes then { s with files := s.files.append path text }
    else { s with files := s.files.overwrite path h.written text }

/-- Write a record by one handler and put the handler behind those that had their turn. -/
def emit (time : String) (r : Record) (s : State) (h : Handler) : State :=
  match if r.level < h.level then none else line? h.format time r with
  | none => { s with handlers := s.handlers ++ [h] }
  | some line =>
    let text := line ++ "\n"
    let h' := { h with written := h.written + text.utf8ByteSize }
    { write h text s with handlers := s.handlers ++ [h'] }

/-- Log a record. A logger without handlers first gets one for standard error. -/
def log (time : String) (r : Record) (s : State) : State :=
  let s := if s.handlers.isEmpty then { s with handlers := [⟨.stderr, 0, plainFormat, none, 0⟩] }
    else s
  if r.level ≤ 0 || r.level < s.level then s
  else s.handlers.foldl (emit time r) { s with handlers := [] }

end State

end ContractInterface.Log
