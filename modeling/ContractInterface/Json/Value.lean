import ContractInterface.Decimal.Binary64
import ContractInterface.Text.Utf16

/-! JSON values. Texts are in UTF-16 and may hold half of a surrogate pair. Objects keep the order
of their fields, integers are of any size, and a number written with a fraction or an exponent
is a double and never an integer. -/
namespace ContractInterface

inductive Json
  | null
  | bool (b : Bool)
  | int (n : Int)
  | float (x : Binary64)
  | string (t : Utf16)
  | array (items : List Json)
  | object (fields : List (Utf16 × Json))

namespace Json

/-- A field whose key is a string. -/
def field (key : String) (value : Json) : Utf16 × Json := (key, value)

/-- The value of a key, which stands at most once among the fields of a value that was read. -/
def field? (fields : List (Utf16 × Json)) (key : Utf16) : Option Json := fields.lookup key

/-- Set a key: a new key goes last, a known one keeps its place and gets the new value. -/
def setField (fields : List (Utf16 × Json)) (key : Utf16) (value : Json) :
    List (Utf16 × Json) :=
  if fields.any (·.1 == key) then fields.map fun f => if f.1 == key then (key, value) else f
  else fields ++ [(key, value)]

/-- Null, false, zero of either kind and every empty text, list and object. -/
def isFalsy : Json → Bool
  | null => true
  | bool b => !b
  | int n => n == 0
  | float x => x.isZero
  | string t => t.isEmpty
  | array items => items.isEmpty
  | object fields => fields.isEmpty

/-- The name that messages give to a value's type. -/
def typeName : Json → String
  | null => "NoneType"
  | bool _ => "bool"
  | int _ => "int"
  | float _ => "float"
  | string _ => "str"
  | array _ => "list"
  | object _ => "dict"

def ofOption {α : Type} (f : α → Json) : Option α → Json
  | none => null
  | some a => f a

end Json

end ContractInterface
