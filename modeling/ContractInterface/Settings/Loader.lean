import ContractInterface.Failure
import ContractInterface.Files.Tree

/-! Environment variables, and what reads more of them from a file. The form of such files is not
part of the settings: all that they rely on is how reading a file may fail. -/
namespace ContractInterface

/-- Environment variables. The name of each is a text, and so is that of each that is asked for. -/
abbrev Environment := List (String × Utf16)

namespace Settings

/-- Takes the variables of a file into an environment. -/
abbrev Loader := Environment → FileTree → Utf16 → Except Failure Environment

/-- A loader asks the system for the file, decodes it and sets variables. It fails where the system
refuses one of these, or where the file is no text or says what no variable can hold. -/
structure Loader.Documented (loader : Loader) : Prop where
  failure : ∀ environment files path e, loader environment files path = .error e →
    e.isSystem = true ∨ e.isValue = true

end Settings

end ContractInterface
