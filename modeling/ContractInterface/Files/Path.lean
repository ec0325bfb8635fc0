import ContractInterface.Files.Error

/-! Paths: texts whose components are set apart by slashes. A half of a surrogate pair may stand for
a byte that belongs to no character. -/
namespace ContractInterface.Path

def isAbsolute (path : Utf16) : Bool := path.points.head? = some (.char '/')

/-- A path seen from a directory. An absolute path is not moved. -/
def join (directory path : Utf16) : Utf16 :=
  if isAbsolute path then path
  else if directory.isEmpty || directory.points.getLast? = some (.char '/') then directory ++ path
  else directory ++ "/" ++ path

/-- The directory and the name behind the last slash. The directory keeps no slash at its end
unless it is made of slashes alone. -/
def split (path : Utf16) : Utf16 × Utf16 :=
  let reversed := path.points.reverse
  let name := (reversed.takeWhile (· ≠ .char '/')).reverse
  let directory := reversed.dropWhile (· ≠ .char '/')
  let stripped := directory.dropWhile (· = .char '/')
  let directory := if stripped.isEmpty then directory else stripped
  (.ofPoints directory.reverse, .ofPoints name)

/-- The directory around what a path leads to and its name there. A slash at the end of the path
makes no difference. -/
def splitLast (path : Utf16) : Utf16 × Utf16 :=
  let (directory, name) := split path
  if name.isEmpty then split directory else (directory, name)

/-- The components between slashes. Empty ones and the dot, which lead nowhere, are left out. -/
def components (path : Utf16) : List Utf16 :=
  let step (x : CodePoint) (parts : List (List CodePoint)) : List (List CodePoint) :=
    match x, parts with
    | .char '/', parts => [] :: parts
    | x, part :: parts => (x :: part) :: parts
    | x, [] => [[x]]
  ((path.points.foldr step [[]]).filter fun p => !p.isEmpty && p ≠ [.char '.']).map .ofPoints

/-- The halves that stand for a byte above 0x7F. -/
def isByte (x : CodePoint) : Bool := x.half?.any fun u => 0xDC80 ≤ u && u ≤ 0xDCFF

/-- The number of bytes of a name. -/
def byteSize (name : Utf16) : Nat :=
  name.points.foldl (fun n x => n + x.char?.elim 1 Char.utf8Size) 0

/-- What keeps a path from being one of the system. -/
def fault? (path : Utf16) : Option FileFault :=
  let isStray (x : CodePoint) : Bool := x.half?.isSome && !isByte x
  match path.points.findIdx? isStray with
  | some place =>
    let halves := ((path.points.drop place).map CodePoint.half?).takeWhile Option.isSome
    some (.unencodable place (halves.filterMap id))
  | none => if path.points.contains (.char '\x00') then some .nullCharacter else none

example : join "abis/" "M.json" = ("abis/M.json" : Utf16) ∧ join "abis" "" = ("abis/" : Utf16) := by
  decide +kernel

example : split "sub/dir//run" = (("sub/dir", "run") : Utf16 × Utf16) := by decide +kernel

example : components "./a//b/" = (["a", "b"] : List Utf16) := by decide +kernel

end ContractInterface.Path
