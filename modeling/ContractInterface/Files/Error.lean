import ContractInterface.Text.Utf16
import ContractInterface.Text.Utf8

/-! What can go wrong with a file. -/
namespace ContractInterface

/-- An error that the system reports, by its number and its words. -/
structure SystemError where
  number : Nat
  reason : String
  deriving DecidableEq

def SystemError.message (e : SystemError) : String := s!"[Errno {e.number}] {e.reason}"

inductive FileFault
  | notFound
  | alreadyExists
  | notADirectory
  | isADirectory
  | nameTooLong
  /-- The system refuses for a reason that does not lie in the tree of files. -/
  | refused (error : SystemError)
  /-- The system opens the file and does not give what it holds. -/
  | unread (error : SystemError)
  /-- From a place on, the path holds halves of surrogate pairs that stand for no byte. -/
  | unencodable (place : Nat) (halves : List UInt16)
  /-- The path holds a character that no path can hold. -/
  | nullCharacter
  /-- The file is no text. -/
  | undecodable (fault : Utf8.Fault)
  deriving DecidableEq

/-- A fault together with the path as it was given. -/
structure FileError where
  fault : FileFault
  path : Utf16
  deriving DecidableEq

namespace FileFault

/-- What the system reports of a fault. The others are found without it. -/
def report? : FileFault → Option SystemError
  | notFound => some ⟨2, "No such file or directory"⟩
  | alreadyExists => some ⟨17, "File exists"⟩
  | notADirectory => some ⟨20, "Not a directory"⟩
  | isADirectory => some ⟨21, "Is a directory"⟩
  | nameTooLong => some ⟨36, "File name too long"⟩
  | refused error | unread error => some error
  | unencodable .. | nullCharacter | undecodable _ => none

/-- Whether the system reports that there is something at the path already. -/
def isExisting (fault : FileFault) : Bool := fault.report?.any (·.number = 17)

/-- Of halves that no path can hold: which they are and where. -/
def placeMessage (place : Nat) (halves : List UInt16) : String :=
  match halves with
  | [u] => s!"character {(CodePoint.half u).quoted} in position {place}"
  | us => s!"characters in position {place}-{place + us.length - 1}"

end FileFault

/-- A file is known by its path only until it is open. -/
def FileError.message (e : FileError) : String :=
  match e.fault, e.fault.report? with
  | .unread error, _ => error.message
  | _, some error => s!"{error.message}: {e.path.quoted}"
  | .undecodable fault, none => fault.message
  | .unencodable place halves, none =>
    s!"'utf-8' codec can't encode {FileFault.placeMessage place halves}: surrogates not allowed"
  | _, none => "embedded null byte"

end ContractInterface
