import ContractInterface.Text.Utf16

/-! The compiler's annotation of a parameter with its type in the source, such as
`struct Pool.Info[]` or `contract Token`. Any text of JSON is one. Reading an annotation and
writing it again gives the same text. -/
namespace ContractInterface

inductive InternalTypeKind
  | addressPayable
  | contract
  | enumeration
  | struct
  | other
  deriving DecidableEq

/-- What is named, the type with its dimensions, and the contract in which it is declared. -/
structure InternalType where
  kind : InternalTypeKind
  ty : Utf16
  contract : Option Utf16
  deriving DecidableEq

/-- The word in front of the named type, or the whole annotation of a payable address. -/
def InternalTypeKind.word : InternalTypeKind → String
  | addressPayable => "address payable"
  | contract => "contract"
  | enumeration => "enum"
  | struct => "struct"
  | other => "other"

namespace InternalType

/-- The unit of `.`, which parts a contract from a type. -/
def point : UInt16 := 0x2E

/-- The unit of `(`, with which a tuple begins. -/
def parenthesis : UInt16 := 0x28

/-- The unit of `[`, with which dimensions begin. -/
def bracket : UInt16 := 0x5B

/-- The contract in front of the first point, if there is one. A tuple keeps its points. -/
def qualified (kind : InternalTypeKind) (us : List UInt16) : InternalType :=
  match us.dropWhile (· ≠ point) with
  | _ :: ty =>
    if us.head? = some parenthesis then ⟨kind, ⟨us⟩, none⟩
    else ⟨kind, ⟨ty⟩, some ⟨us.takeWhile (· ≠ point)⟩⟩
  | [] => ⟨kind, ⟨us⟩, none⟩

/-- What follows a given word and a blank. -/
def behind? (word : String) (us : List UInt16) : Option (List UInt16) :=
  let before := (Utf16.ofString (word ++ " ")).units
  if before.isPrefixOf us then some (us.drop before.length) else none

/-- Every text is an annotation. One without a known word in front is kept as it stands. -/
def parse (t : Utf16) : InternalType :=
  let us := t.units
  if t = InternalTypeKind.addressPayable.word then ⟨.addressPayable, "address", none⟩
  else if let some r := behind? InternalTypeKind.contract.word us then ⟨.contract, ⟨r⟩, none⟩
  else if let some r := behind? InternalTypeKind.enumeration.word us then qualified .enumeration r
  else if let some r := behind? InternalTypeKind.struct.word us then qualified .struct r
  else qualified .other us

def isStruct (t : InternalType) : Bool := t.kind = .struct

/-- The name of a struct without contract and dimensions. -/
def structName? (t : InternalType) : Option Utf16 :=
  if t.isStruct then some ⟨t.ty.units.takeWhile (· ≠ bracket)⟩ else none

/-- The type behind its contract. -/
def qualifiedText (t : InternalType) : Utf16 :=
  match t.contract with
  | none => t.ty
  | some contract => ⟨contract.units ++ point :: t.ty.units⟩

def text (t : InternalType) : Utf16 :=
  match t.kind with
  | .addressPayable => InternalTypeKind.addressPayable.word
  | .other => t.qualifiedText
  | kind => Utf16.ofString (kind.word ++ " ") ++ t.qualifiedText

example : parse "struct Pool.Info[]" = ⟨.struct, "Info[]", some "Pool"⟩ := by decide +kernel

example : (parse "(A.B)").text = "(A.B)" := by decide +kernel

end InternalType

end ContractInterface
