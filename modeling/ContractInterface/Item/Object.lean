import ContractInterface.Item.Json

/-! Objects that are handed to stores and interfaces: items, and parameters on their own, which
are no items and are refused wherever an item is needed. -/
namespace ContractInterface

inductive Object
  | item (x : Item)
  | param (p : Param)

namespace Object

def item? : Object → Option Item
  | item x => some x
  | param _ => none

/-- The item that an object has to be. -/
def toItem : Object → Except Failure Item
  | item x => .ok x
  | param _ => .error .notAnItem

end Object

end ContractInterface
