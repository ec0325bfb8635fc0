import ContractInterface.Abi
import ContractInterface.Json.Writer
import ContractInterface.Settings.Given
import ContractInterface.TypedData.Resolver

/-! Documents: values of this library in lists and objects, on their way to JSON. What a value is
written as is decided by tests, the first of which that it passes counts: bytes are written in
base 16, a member of an enumeration as its word, a type as it is spelled, and what has a JSON form
of its own in that form. Other records are objects of their fields in order. -/
namespace ContractInterface

/-- A value of this library that is neither JSON nor a record without a form of its own. -/
inductive Value
  | bytes (bytes : List UInt8)
  | typeSpec (t : TypeSpec)
  | internalType (t : InternalType)
  | internalTypeKind (kind : InternalTypeKind)
  | mutability (m : Mutability)
  | item (x : Item)
  | wrapped (x : Item) (owned : Bool)
  | param (p : Param)
  | resolver (r : TypedData.Resolver)

namespace Value

def bytes? : Value → Option (List UInt8)
  | bytes bs => some bs
  | _ => none

/-- The word of a member of an enumeration. -/
def word? : Value → Option String
  | internalTypeKind kind => some kind.word
  | mutability m => some m.name
  | _ => none

/-- The spelling of a type. -/
def spelling? : Value → Option Utf16
  | typeSpec t => some t.span
  | internalType t => some t.text
  | _ => none

/-- The JSON form of what has one. A wrapper has that of its item, whether it owns it or not. -/
def form? : Value → Option Json
  | item x | wrapped x _ => some x.toJson
  | param p => some p.toJson
  | _ => none

/-- The tests in their order. What passes none of them cannot be written. -/
def toJson (v : Value) : Except Failure Json :=
  if let some bs := v.bytes? then .ok (.string (Hex.encode bs))
  else if let some word := v.word? then .ok (.string word)
  else if let some spelling := v.spelling? then .ok (.string spelling)
  else if let some form := v.form? then .ok form
  else .error (.notEncodable "Resolver")

end Value

inductive Document
  | json (x : Json)
  | list (members : List Document)
  | object (fields : List (Utf16 × Document))
  | value (v : Value)

namespace Document

def string (s : Utf16) : Document := json (.string s)

def bytes (bs : List UInt8) : Document := value (.bytes bs)

def typeSpec (t : TypeSpec) : Document := value (.typeSpec t)

def item (x : Item) : Document := value (.item x)

/-- A value or null. -/
def ofOption {α : Type} (f : α → Document) : Option α → Document
  | none => json .null
  | some a => f a

mutual

def toJson : Document → Except Failure Json
  | json x => .ok x
  | list members => (toJsons members).map .array
  | object fields => (fieldsToJson fields).map .object
  | value v => v.toJson

def toJsons : List Document → Except Failure (List Json)
  | [] => .ok []
  | d :: ds => do
    let x ← toJson d
    let xs ← toJsons ds
    .ok (x :: xs)

def fieldsToJson : List (Utf16 × Document) → Except Failure (List (Utf16 × Json))
  | [] => .ok []
  | (key, d) :: fields => do
    let x ← toJson d
    let xs ← fieldsToJson fields
    .ok ((key, x) :: xs)

end

/-- The text of a document on one line. -/
def compact (d : Document) : Except Failure String := d.toJson.map Json.compact

/-- The text of a document over several lines. -/
def indented (d : Document) : Except Failure String := d.toJson.map Json.indented

theorem toJsons_eq_mapM (ds : List Document) : toJsons ds = ds.mapM toJson := by
  induction ds with
  | nil => rfl
  | cons d ds ih => rw [toJsons, ih, List.mapM_cons]; rfl

/-- Items have a JSON form, and so has a list of them. -/
theorem toJson_list_item (xs : List Item) :
    (list (xs.map item)).toJson = .ok (.array (xs.map Item.toJson)) := by
  suffices h : toJsons (xs.map item) = .ok (xs.map Item.toJson) by simp [toJson, h, Except.map]
  have hitem (x : Item) : toJson (item x) = .ok x.toJson := rfl
  induction xs with
  | nil => rfl
  | cons x xs ih => simp [toJsons, hitem, ih, bind, Except.bind]

end Document

/-- The stem of a type, without its dimensions: its span, and the members of a tuple. -/
def TypeSpec.stemDocument : TypeSpec → Document
  | named _ name _ => .object [("span", .string name)]
  | tuple _ body members _ =>
    .object [("span", .string body), ("types", .list (members.map .typeSpec))]

namespace TypedData

def Member.toDocument (m : Member) : Document :=
  .object [("ty", .typeSpec m.ty), ("name", .string m.name)]

def Definition.toDocument (d : Definition) : Document :=
  .object [("span", .string d.span), ("type_name", .string d.name),
    ("props", .list (d.members.map Member.toDocument))]

def Reading.toDocument (r : Reading) : Document :=
  .object [("types", .list (r.definitions.map Definition.toDocument))]

def StructField.toDocument (f : StructField) : Document :=
  .object [("type_name", .string f.ty), ("name", .string f.name)]

def Struct.toDocument (s : Struct) : Document :=
  .object [("type_name", .string s.name), ("props", .list (s.fields.map StructField.toDocument))]

end TypedData

namespace Abi

/-- Groups of items by their names. -/
def groupsDocument {α : Type} (toItem : α → Item) (groups : Overloads α) : Document :=
  .object (groups.map fun (name, xs) => (name, .list (xs.map fun x => .item (toItem x))))

def toDocument (abi : Abi) : Document :=
  .object [("constructor", .ofOption (fun c => .item (.constructor c)) abi.constructor),
    ("fallback", .ofOption (fun m => .item (.fallback m)) abi.fallback),
    ("receive", .ofOption (fun m => .item (.receive m)) abi.receive),
    ("functions", groupsDocument .function abi.functions),
    ("events", groupsDocument .event abi.events),
    ("errors", groupsDocument .error abi.errors)]

end Abi

def Settings.Given.toDocument (s : Given) : Document :=
  .object [("abi_dir", .json s.abiDirectory), ("log_level", .json s.logLevel),
    ("log_filename", .json s.logFile), ("log_stdout", .json s.logToStdout)]

end ContractInterface
