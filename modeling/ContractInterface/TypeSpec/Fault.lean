import ContractInterface.Text.Utf16
import ContractInterface.TypeSpec.Basic

/-! What can be wrong with the text of a type, a parameter list or a struct definition. -/
namespace ContractInterface

/-- Positions count characters from the start of the trimmed text. -/
inductive TypeFault
  | empty
  | unexpected (found : CodePoint) (position : Nat)
  | nameExpected (position : Nat)
  | tooDeep
  | unclosedTuple
  | separatorExpected (found : CodePoint) (position : Nat)
  | badDimension (position : Nat)
  | zeroDimension
  | unbalanced
  | unclosedList
  | noList
  | textAfterList (rest : String)
  deriving DecidableEq

namespace TypeFault

def reason : TypeFault → String
  | empty => "empty type"
  | unexpected found position => s!"unexpected {found.quoted} at position {position}"
  | nameExpected position => s!"expected a type name at position {position}"
  | tooDeep => s!"tuples nested deeper than {maxNesting} levels"
  | unclosedTuple => "unclosed tuple"
  | separatorExpected found position =>
    s!"expected ',' or ')' at position {position}, found {found.quoted}"
  | badDimension position => s!"malformed array dimension at position {position}"
  | zeroDimension => "array dimensions must be positive"
  | unbalanced => "unbalanced parentheses"
  | unclosedList => "unclosed parenthesis"
  | noList => "no opening parenthesis found"
  | textAfterList rest => s!"unexpected text after the parameter list: {Text.quoted rest}"

/-- Count a position from the start of a text of `length` characters that was counted from
its end. -/
def fromStart (length : Nat) : TypeFault → TypeFault
  | unexpected found left => unexpected found (length - left)
  | nameExpected left => nameExpected (length - left)
  | separatorExpected found left => separatorExpected found (length - left)
  | badDimension left => badDimension (length - left)
  | fault => fault

/-- Show what stands at the place of a fault in the given text. -/
def showing (xs : List CodePoint) : TypeFault → TypeFault
  | unexpected found position => unexpected (xs[position]?.getD found) position
  | separatorExpected found position => separatorExpected (xs[position]?.getD found) position
  | fault => fault

end TypeFault

end ContractInterface
