import ContractInterface.Text.Utf16

/-! Halves of surrogate pairs in front of readers of strings. A character that occurs nowhere in a
text stands for each half in it, and what is said of the text afterwards shows the half by its
number. Stand-ins are ideographs: like halves they are neither blanks nor digits nor part of a name,
so a reader takes the one for what it would take the other for, and messages show them as they
are. -/
namespace ContractInterface

/-- Halves with the characters that stand for them. -/
abbrev StandIns := List (UInt16 × Char)

namespace StandIns

def candidate (n : Nat) : Char := Char.ofNat (0x20000 + n)

/-- Stand-ins for the halves in a text. Of as many candidates as the text has places, those that
its characters leave are enough. -/
def ofText (t : Utf16) : StandIns :=
  match (t.points.filterMap CodePoint.half?).eraseDups with
  | [] => []
  | halves =>
    let candidates := (List.range t.points.length).map candidate
    halves.zip (candidates.filter fun c => !t.points.contains (.char c))

/-- A text with stand-ins for its halves. -/
def read (s : StandIns) (t : Utf16) : String :=
  String.ofList (t.points.map fun
    | .char c => c
    | .half u => (s.lookup u).getD '\uFFFD')

/-- What is said of a text that was read, with the halves by their numbers. -/
def restore (s : StandIns) (message : Utf16) : Utf16 :=
  .ofPoints (message.points.flatMap fun x =>
    match s.find? fun (_, c) => x = .char c with
    | some (u, _) => (CodePoint.quotedIn '\'' (.half u)).map .char
    | none => [x])

example :
    let t : Utf16 := ⟨[0x20, 0xD83D, 0xD840, 0xDC00]⟩
    (ofText t).restore (Text.quoted ((ofText t).read t)) = (t.quoted : Utf16) := by decide +kernel

end StandIns

end ContractInterface
