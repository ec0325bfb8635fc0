import ContractInterface.Item.Basic
import ContractInterface.Param.Json

/-! Items in JSON: objects tagged by `type`, whose other fields follow in the order `name`,
`inputs`, `outputs`, `stateMutability`, `anonymous`. -/
namespace ContractInterface

namespace ConstructorItem

def toJson (c : ConstructorItem) : Json :=
  .object [("type", .string Kind.constructor.tag), ("inputs", .array (Param.toJsons c.inputs)),
    ("stateMutability", .string c.mutability.name)]

end ConstructorItem

namespace FunctionItem

def toJson (f : FunctionItem) : Json :=
  .object [("type", .string Kind.function.tag), ("name", .string f.name),
    ("inputs", .array (Param.toJsons f.inputs)), ("outputs", .array (Param.toJsons f.outputs)),
    ("stateMutability", .string f.mutability.name)]

end FunctionItem

namespace EventItem

def toJson (e : EventItem) : Json :=
  .object [("type", .string Kind.event.tag), ("name", .string e.name),
    ("inputs", .array (Param.toJsons e.inputs)), ("anonymous", .bool e.anonymous)]

end EventItem

namespace ErrorItem

def toJson (e : ErrorItem) : Json :=
  .object [("type", .string Kind.error.tag), ("name", .string e.name),
    ("inputs", .array (Param.toJsons e.inputs))]

end ErrorItem

namespace Item

def toJson : Item → Json
  | constructor c => c.toJson
  | fallback m =>
    .object [("type", .string Kind.fallback.tag), ("stateMutability", .string m.name)]
  | receive m =>
    .object [("type", .string Kind.receive.tag), ("stateMutability", .string m.name)]
  | function f => f.toJson
  | event e => e.toJson
  | error e => e.toJson

/-- The kind an object is tagged with, a function where there is no tag. -/
def tagField (fields : List (Utf16 × Json)) : Except Failure Kind :=
  match Json.field? fields "type" with
  | none => .ok .function
  | some (.string tag) =>
    match tag.toString?.bind Kind.ofTag? with
    | some kind => .ok kind
    | none => .error (.decode (.unknownTag (.string tag)))
  | some found => .error (.decode (.unknownTag found))

/-- A name that is given, to whatever kind of item, is an identifier. -/
def nameField? (kind : Kind) (fields : List (Utf16 × Json)) :
    Except Failure (Option String) :=
  match Json.field? fields "name" with
  | none | some .null => .ok none
  | some (.string name) => (checkName name (kind.tag ++ " name") false).map some
  | some found => .error (.decode (.itemName kind.tag found))

def requireName (kind : Kind) : Option String → Except Failure String
  | some name => .ok name
  | none => .error (.decode (.missingName kind))

/-- A parameter list, empty where it is absent or null. -/
def paramsField (decode : Json → Except Failure Param) (key : String)
    (fields : List (Utf16 × Json)) : Except Failure (List Param) :=
  match Json.field? fields key with
  | none | some .null => .ok []
  | some (.array items) => items.mapM decode
  | some found => .error (.decode (.listExpected key found))

def anonymousField (fields : List (Utf16 × Json)) : Except Failure Bool :=
  match Json.field? fields "anonymous" with
  | none => .ok false
  | some (.bool x) => .ok x
  | some found => .error (.decode (.anonymousFlag found))

/-- The item of a kind, once its name has been looked at. -/
def ofFields (fields : List (Utf16 × Json)) (name? : Option String) :
    Kind → Except Failure Item
  | .constructor => do
    let inputs ← paramsField Param.ofJson "inputs" fields
    let mutability ← Mutability.ofFields fields .nonpayable
    .ok (constructor ⟨inputs, mutability⟩)
  | .fallback => do
    let mutability ← Mutability.ofFields fields .nonpayable
    .ok (fallback mutability)
  | .receive => do
    let mutability ← Mutability.ofFields fields .payable
    .ok (receive mutability)
  | .function => do
    let name ← requireName .function name?
    let inputs ← paramsField Param.ofJson "inputs" fields
    let outputs ← paramsField Param.ofJson "outputs" fields
    let mutability ← Mutability.ofFields fields .nonpayable
    .ok (function ⟨name, inputs, outputs, mutability⟩)
  | .event => do
    let anonymous ← anonymousField fields
    let name ← requireName .event name?
    let inputs ← paramsField Param.eventInputOfJson "inputs" fields
    .ok (event ⟨name, inputs, anonymous⟩)
  | .error => do
    let name ← requireName .error name?
    let inputs ← paramsField Param.ofJson "inputs" fields
    .ok (error ⟨name, inputs⟩)

/-- Decode an item of any kind. -/
def ofJson : Json → Except Failure Item
  | .object fields => do
    let kind ← tagField fields
    let name? ← nameField? kind fields
    ofFields fields name? kind
  | found => .error (.decode (.itemShape found))

/-- Decode an item that has to be of the given kind. -/
def ofJsonAs (expected : Kind) (x : Json) : Except Failure Item := do
  let item ← ofJson x
  if item.kind = expected then .ok item else .error (.kindMismatch expected item.kind)

end Item

end ContractInterface
