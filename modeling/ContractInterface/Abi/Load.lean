import ContractInterface.Abi
import ContractInterface.Files.Tree
import ContractInterface.Json.Depth
import ContractInterface.Text.Lines

/-! Interfaces in files: lists of items, or the output of a compiler with such a list in its
field `abi`. -/
namespace ContractInterface.Abi

/-- Decode an interface from the text of a file. -/
def ofText (text : String) : Except Failure Abi := do
  let x ← (Json.read (String.ofList (Text.unifyLines text.toList))).mapError Failure.ofFault
  ofJson x

/-- Read an interface from a file. The record tells how many items it has. -/
def load (files : FileTree) (path : Utf16) : Except Failure (Abi × Log.Record) := do
  let text ← (files.read path).mapError Failure.file
  let abi ← ofText text
  .ok (abi, ⟨Log.debug, "abi", "load_abi", s!"Loaded {abi.size} ABI items from " ++ path⟩)

end ContractInterface.Abi
