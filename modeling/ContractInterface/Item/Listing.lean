import ContractInterface.Item.Basic
import ContractInterface.Text.Quoted

/-! A listing of an item with all that it holds, by field names in declaration order. -/
namespace ContractInterface

def listed (items : List String) : String := "[" ++ ", ".intercalate items ++ "]"

def optionListed {α : Type} (f : α → String) : Option α → String
  | none => "None"
  | some a => f a

/-- A value of a named set of constants, with the text that stands for it. -/
def constantListed (set constant text : String) : String :=
  s!"<{set}.{constant}: {Text.quoted text}>"

def boolListed (b : Bool) : String := if b then "True" else "False"

def Mutability.listing (m : Mutability) : String :=
  constantListed "StateMutability"
    (match m with
      | .pure => "PURE"
      | .view => "VIEW"
      | .nonpayable => "NON_PAYABLE"
      | .payable => "PAYABLE")
    m.name

def InternalTypeKind.listing (kind : InternalTypeKind) : String :=
  constantListed "InternalTypeKind"
    (match kind with
      | .addressPayable => "ADDRESS_PAYABLE"
      | .contract => "CONTRACT"
      | .enumeration => "ENUM"
      | .struct => "STRUCT"
      | .other => "OTHER")
    kind.word

def InternalType.listing (t : InternalType) : String :=
  s!"InternalType(kind={t.kind.listing}, ty={t.ty.quoted}, " ++
    s!"contract={optionListed Utf16.quoted t.contract})"

namespace Param

mutual

def listing : Param → String
  | ⟨name, ty, components, internalType, indexed⟩ =>
    let fields := s!"(name={Text.quoted name}, ty={Text.quoted ty}, components=" ++
      listed (listings components) ++
      s!", internal_type={optionListed InternalType.listing internalType}"
    match indexed with
    | none => "Param" ++ fields ++ ")"
    | some x => "EventParam" ++ fields ++ s!", indexed={boolListed x})"

def listings : List Param → List String
  | [] => []
  | p :: ps => listing p :: listings ps

end

end Param

def Item.listing : Item → String
  | .constructor c =>
    s!"Constructor(inputs={listed (Param.listings c.inputs)}, " ++
      s!"state_mutability={c.mutability.listing})"
  | .fallback m => s!"Fallback(state_mutability={m.listing})"
  | .receive m => s!"Receive(state_mutability={m.listing})"
  | .function f =>
    s!"Function(name={Text.quoted f.name}, inputs={listed (Param.listings f.inputs)}, " ++
      s!"outputs={listed (Param.listings f.outputs)}, " ++
      s!"state_mutability={f.mutability.listing})"
  | .event e =>
    s!"Event(name={Text.quoted e.name}, inputs={listed (Param.listings e.inputs)}, " ++
      s!"anonymous={boolListed e.anonymous})"
  | .error e =>
    s!"Error(name={Text.quoted e.name}, inputs={listed (Param.listings e.inputs)})"

end ContractInterface
