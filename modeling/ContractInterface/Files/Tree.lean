import ContractInterface.Files.Path

/-! A tree of files around a working directory. A place in it is a list of components: from
the working directory on, or, for what lies elsewhere, from the component `/` on, which is the
top of all files. Beside what follows from the tree, the system may refuse any access. -/
namespace ContractInterface

/-- What is asked of the system about a path, or, for no path, where the program works. -/
inductive Access
  | status
  | openToRead
  | read
  | makeDirectory
  | openToWrite
  | write
  | workingDirectory
  deriving DecidableEq

/-- Files with their bytes and directories without any, by their places. -/
abbrev FileEntries := List (List Utf16 × Option (List UInt8))

/-- The working directory, whose path is the root, has no entry, nor have the directories around
it. What the system refuses may depend on all that there is, as it does on a full device. -/
structure FileTree where
  root : Utf16
  entries : FileEntries
  refuses : FileEntries → Access → Utf16 → Option SystemError := fun _ _ _ => none

namespace FileTree

/-- A working directory with nothing in it, in a system that refuses nothing. -/
def empty (root : Utf16) : FileTree := { root, entries := [] }

/-- What the system refuses as things are. -/
def refusal? (t : FileTree) (access : Access) (path : Utf16) : Option SystemError :=
  t.refuses t.entries access path

/-- The top of all files. -/
def top : List Utf16 := ["/"]

/-- The working directory from the top on. -/
def here (t : FileTree) : List Utf16 := top ++ Path.components t.root

/-- A place by its own spelling: the working directory is the empty list. -/
def settle (t : FileTree) (place : List Utf16) : List Utf16 :=
  if place = t.here then [] else place

def child (t : FileTree) (place : List Utf16) (step : Utf16) : List Utf16 :=
  t.settle (place ++ [step])

/-- The directory around a place. The top has none but itself. -/
def parent (t : FileTree) (place : List Utf16) : List Utf16 :=
  if place = top then top
  else if place.isEmpty then t.here.dropLast
  else t.settle place.dropLast

/-- One step along a path. -/
def step (t : FileTree) (place : List Utf16) (name : Utf16) : List Utf16 :=
  if name = ".." then t.parent place else t.child place name

/-- The components behind the root, for its path and those that continue it. -/
def below? (t : FileTree) (path : Utf16) : Option (List Utf16) :=
  if t.root.points.isPrefixOf path.points then
    match path.points.drop t.root.points.length with
    | [] => some []
    | .char '/' :: r => some (Path.components (.ofPoints r))
    | _ => none
  else none

/-- The place where a path starts, and its steps from there. -/
def start (t : FileTree) (path : Utf16) : List Utf16 × List Utf16 :=
  match t.below? path with
  | some steps => ([], steps)
  | none =>
    (if Path.isAbsolute path then t.settle top else [], Path.components path)

/-- The place that a path leads to, if all on its way are directories. -/
def place (t : FileTree) (path : Utf16) : List Utf16 :=
  let (first, steps) := t.start path
  steps.foldl t.step first

/-- The absolute path of a place. -/
def spell (t : FileTree) (place : List Utf16) : Utf16 :=
  if top.isPrefixOf place then "/" ++ .intercalate "/" (place.drop 1)
  else .intercalate "/" (t.root :: place)

/-- The absolute path of a file, without dots and doubled slashes. -/
def absolute (t : FileTree) (path : Utf16) : Utf16 := t.spell (t.place path)

/-- Something at a place: the bytes of a file, or a directory. -/
inductive Node
  | file (bytes : List UInt8)
  | directory

def Node.isFile : Node → Bool
  | file _ => true
  | directory => false

def node? (t : FileTree) (place : List Utf16) : Option Node :=
  if place.isEmpty || place.isPrefixOf t.here then some .directory
  else
    (t.entries.lookup place).map fun
      | some bytes => .file bytes
      | none => .directory

def put (t : FileTree) (place : List Utf16) (content : Option (List UInt8)) : FileTree :=
  if t.entries.any (·.1 == place) then
    { t with entries := t.entries.map fun e => if e.1 == place then (place, content) else e }
  else { t with entries := t.entries ++ [(place, content)] }

/-- The most bytes in the name of a file. -/
def nameLimit : Nat := 255

/-- Follow steps through directories. The last one need not exist. -/
def walk (t : FileTree) (place : List Utf16) : List Utf16 → Except FileFault (List Utf16)
  | [] => .ok place
  | name :: names =>
    match t.node? place with
    | none => .error .notFound
    | some (.file _) => .error .notADirectory
    | some .directory =>
      if nameLimit < Path.byteSize name then .error .nameTooLong
      else t.walk (t.step place name) names

/-- A path that leads to no file: one that ends in a slash or a dot. -/
def endsInDirectory (path : Utf16) : Bool :=
  match path.points.reverse with
  | .char '/' :: _ | [.char '.'] | .char '.' :: .char '/' :: _ => true
  | _ => false

/-- Find the place that a path leads to. -/
def locate (t : FileTree) (path : Utf16) : Except FileFault (List Utf16) := do
  if path.isEmpty then .error .notFound
  else
    let (first, steps) := t.start path
    let place ← t.walk first steps
    match endsInDirectory path, t.node? place with
    | true, some (.file _) => .error .notADirectory
    | _, _ => .ok place

/-- Find the place for an access. What is no path does not come before the system. -/
def reach (t : FileTree) (access : Access) (path : Utf16) : Except FileFault (List Utf16) :=
  match Path.fault? path, t.refusal? access path with
  | some fault, _ => .error fault
  | none, some error => .error (.refused error)
  | none, none => t.locate path

/-- Whether there is something of a kind at a path, as far as the system tells. -/
def has (t : FileTree) (path : Utf16) (kind : Node → Bool) : Bool :=
  match t.reach .status path with
  | .ok place => (t.node? place).any kind
  | .error _ => false

def contains (t : FileTree) (path : Utf16) : Bool := t.has path fun _ => true

def isFile (t : FileTree) (path : Utf16) : Bool := t.has path Node.isFile

def isDirectory (t : FileTree) (path : Utf16) : Bool := t.has path (!·.isFile)

/-- The text of a file. -/
def read (t : FileTree) (path : Utf16) : Except FileError String :=
  match t.reach .openToRead path with
  | .error fault => .error ⟨fault, path⟩
  | .ok place =>
    match t.node? place, t.refusal? .read path with
    | none, _ => .error ⟨.notFound, path⟩
    | some .directory, _ => .error ⟨.isADirectory, path⟩
    | some (.file _), some error => .error ⟨.unread error, path⟩
    | some (.file bytes), none =>
      (Utf8.decode bytes).mapError fun fault => ⟨.undecodable fault, path⟩

/-- Create a directory in one that exists. One that is there already is left as it is. -/
def makeDirectory (t : FileTree) (path : Utf16) : FileTree × Option FileError :=
  let kept (fault : FileFault) := if t.isDirectory path then none else some ⟨fault, path⟩
  match t.reach .makeDirectory path with
  | .error fault => (t, kept fault)
  | .ok place =>
    match t.node? place with
    | none => (t.put place none, none)
    | some _ => (t, kept .alreadyExists)

/-- Create a directory and those around it that are missing. Those that were created stay if a
later one cannot be. The number bounds them. -/
def makeAround (t : FileTree) (path : Utf16) : Nat → FileTree × Option FileError
  | 0 => t.makeDirectory path
  | n + 1 =>
    let (directory, name) := Path.splitLast path
    if directory.isEmpty || name.isEmpty || t.contains directory then t.makeDirectory path
    else
      let (t, error) := t.makeAround directory n
      match error.filter (!·.fault.isExisting) with
      | some e => (t, some e)
      | none => if name = "." then (t, none) else t.makeDirectory path

/-- Create a directory and those around it. One that exists is left as it is. -/
def makeDirectories (t : FileTree) (path : Utf16) : FileTree × Option FileError :=
  t.makeAround path path.points.length

/-- Open a file for writing: create it, or empty it unless what it holds is kept. -/
def openFile (t : FileTree) (path : Utf16) (keep : Bool) : Except FileError FileTree :=
  match t.reach .openToWrite path with
  | .error fault => .error ⟨fault, path⟩
  | .ok place =>
    match t.node? place with
    | some .directory => .error ⟨.isADirectory, path⟩
    | some (.file bytes) => .ok (t.put place (some (if keep then bytes else [])))
    | none =>
      match t.node? (t.parent place) with
      | some .directory => .ok (t.put place (some []))
      | _ => .error ⟨.notFound, path⟩

/-- Write behind what a file holds, which is created if it is missing. -/
def append (t : FileTree) (path : Utf16) (text : String) : FileTree :=
  match t.reach .write path with
  | .error _ => t
  | .ok place =>
    match t.node? place with
    | some .directory => t
    | some (.file before) => t.put place (some (before ++ Utf8.encode text))
    | none => t.put place (some (Utf8.encode text))

/-- Write over what a file holds, which must exist, from a place on. Zero bytes fill the space in
front of the place where the file is too short. -/
def overwrite (t : FileTree) (path : Utf16) (offset : Nat) (text : String) : FileTree :=
  match t.reach .write path with
  | .error _ => t
  | .ok place =>
    match t.node? place with
    | some (.file before) =>
      let bytes := Utf8.encode text
      let filled := before ++ List.replicate (offset - before.length) 0
      t.put place (some (filled.take offset ++ bytes ++ filled.drop (offset + bytes.length)))
    | _ => t

def remove (t : FileTree) (path : Utf16) : FileTree :=
  match t.locate path with
  | .error _ => t
  | .ok place => { t with entries := t.entries.filter (·.1 ≠ place) }

/-- Put a file or a directory at a path, and directories around it where there are none. -/
def insert (t : FileTree) (path : Utf16) (content : Option (List UInt8)) : FileTree :=
  let place := t.place path
  let around := (List.range place.length).drop 1 |>.map place.take
  let t := around.foldl (fun t p => if (t.node? p).isSome then t else t.put p none) t
  t.put place content

/-- A tree of the given texts and the directories they lie in. -/
def ofFiles (root : Utf16) (files : List (Utf16 × String)) : FileTree :=
  files.foldl (fun t (path, text) => t.insert path (some (Utf8.encode text))) (.empty root)

/-- Every entry in the working directory by its path in order, files with what can be read of
them. Directories end in a slash. -/
def listing (t : FileTree) : List (Utf16 × Option String) :=
  let inside := t.entries.filter fun (place, _) => !top.isPrefixOf place
  let named : List (Utf16 × Option String) := inside.map fun (place, content) =>
    (.intercalate "/" place ++ (if content.isNone then "/" else ""), content.map Utf8.replaced)
  let order (e : Utf16 × Option String) : List Nat := e.1.points.map CodePoint.toNat
  named.mergeSort fun e e' => !(order e').lex (order e) Nat.blt

/-- The entries of a tree that are not the same in another one, by their absolute paths. -/
def changes (before after : FileTree) : List (Utf16 × Option (List UInt8)) :=
  (after.entries.filter fun e => !before.entries.contains e).map fun (place, content) =>
    (after.spell place, content)

end FileTree

end ContractInterface
