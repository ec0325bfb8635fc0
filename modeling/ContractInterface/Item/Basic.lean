import ContractInterface.Declaration
import ContractInterface.Mutability
import ContractInterface.Signature

/-! The items of an interface. What an item of some kind does not have, its accessors do not
give: constructors have no name, errors no mutability, and the inputs of events are apart from
those of all other kinds. -/
namespace ContractInterface

structure ConstructorItem where
  inputs : List Param
  mutability : Mutability
  deriving DecidableEq

structure FunctionItem where
  name : String
  inputs : List Param
  outputs : List Param
  mutability : Mutability
  deriving DecidableEq

structure EventItem where
  name : String
  inputs : List Param
  anonymous : Bool
  deriving DecidableEq

structure ErrorItem where
  name : String
  inputs : List Param
  deriving DecidableEq

inductive Item
  | constructor (c : ConstructorItem)
  | fallback (mutability : Mutability)
  | receive (mutability : Mutability)
  | function (f : FunctionItem)
  | event (e : EventItem)
  | error (e : ErrorItem)
  deriving DecidableEq

namespace FunctionItem

/-- Read a declaration. It says nothing of mutability, so the function is not payable. -/
def parse (text : String) : Except Failure FunctionItem :=
  (Declaration.parseFunction text).map fun d =>
    ⟨d.name, d.inputs, d.outputs.getD [], .nonpayable⟩

def signature (f : FunctionItem) : String := ContractInterface.signature f.name f.inputs none

/-- The signature with the outputs. -/
def fullSignature (f : FunctionItem) : String :=
  ContractInterface.signature f.name f.inputs (some f.outputs)

end FunctionItem

namespace EventItem

def signature (e : EventItem) : String := ContractInterface.signature e.name e.inputs none

/-- The inputs that are topics. One that does not say whether it is has no place in an event. -/
def indexedInputs (e : EventItem) : Except Failure (List Param) :=
  e.inputs.filterM fun p =>
    match p.indexed with
    | some indexed => .ok indexed
    | none => .error (.missingField "Param" "indexed")

end EventItem

namespace ErrorItem

def parse (text : String) : Except Failure ErrorItem :=
  (Declaration.parseError text).map fun d => ⟨d.name, d.inputs⟩

def signature (e : ErrorItem) : String := ContractInterface.signature e.name e.inputs none

end ErrorItem

/-- The parameter lists of items, by the accessor that gives them. -/
inductive ListField
  | inputs
  | eventInputs
  | outputs
  deriving DecidableEq

namespace Item

def kind : Item → Kind
  | constructor _ => .constructor
  | fallback _ => .fallback
  | receive _ => .receive
  | function _ => .function
  | event _ => .event
  | error _ => .error

def name? : Item → Option String
  | function f => some f.name
  | event e => some e.name
  | error e => some e.name
  | _ => none

def rename? (name : String) : Item → Option Item
  | function f => some (function { f with name })
  | event e => some (event { e with name })
  | error e => some (error { e with name })
  | _ => none

def mutability? : Item → Option Mutability
  | constructor c => some c.mutability
  | fallback m => some m
  | receive m => some m
  | function f => some f.mutability
  | _ => none

def setMutability? (m : Mutability) : Item → Option Item
  | constructor c => some (constructor { c with mutability := m })
  | fallback _ => some (fallback m)
  | receive _ => some (receive m)
  | function f => some (function { f with mutability := m })
  | _ => none

def list? : ListField → Item → Option (List Param)
  | .inputs, constructor c => some c.inputs
  | .inputs, function f => some f.inputs
  | .inputs, error e => some e.inputs
  | .eventInputs, event e => some e.inputs
  | .outputs, function f => some f.outputs
  | _, _ => none

def setList? (ps : List Param) : ListField → Item → Option Item
  | .inputs, constructor c => some (constructor { c with inputs := ps })
  | .inputs, function f => some (function { f with inputs := ps })
  | .inputs, error e => some (error { e with inputs := ps })
  | .eventInputs, event e => some (event { e with inputs := ps })
  | .outputs, function f => some (function { f with outputs := ps })
  | _, _ => none

def signature? : Item → Option String
  | function f => some f.signature
  | event e => some e.signature
  | error e => some e.signature
  | _ => none

/-- The selector of a function or an error, by a hash function. For an event it is the whole hash of
the signature, which is the first topic of the event's logs. -/
def selectorBy? (hash : String → List UInt8) : Item → Option (List UInt8)
  | function f => some (selectorBy hash f.signature)
  | event e => some (hash e.signature)
  | error e => some (selectorBy hash e.signature)
  | _ => none

def selector? : Item → Option (List UInt8) := selectorBy? Keccak.hashText

/-- An item can be renamed if it has a name. -/
theorem isSome_rename? (name : String) (x : Item) :
    (x.rename? name).isSome = x.name?.isSome := by cases x <;> rfl

theorem isSome_setMutability? (m : Mutability) (x : Item) :
    (x.setMutability? m).isSome = x.mutability?.isSome := by cases x <;> rfl

/-- A list can be set where there is one. -/
theorem isSome_setList? (ps : List Param) (field : ListField) (x : Item) :
    (x.setList? ps field).isSome = (x.list? field).isSome := by
  cases field <;> cases x <;> rfl

end Item

end ContractInterface
