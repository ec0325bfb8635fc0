import ContractInterface.Failure

/-! State mutability: whether a call reads or writes the state of the chain and whether it
accepts payment. -/
namespace ContractInterface

inductive Mutability
  | pure
  | view
  | nonpayable
  | payable
  deriving DecidableEq

namespace Mutability

def all : List Mutability := [.pure, view, nonpayable, payable]

def name : Mutability → String
  | .pure => "pure"
  | view => "view"
  | nonpayable => "nonpayable"
  | payable => "payable"

def ofName? (s : String) : Option Mutability := all.find? (·.name == s)

@[simp] theorem ofName?_name (m : Mutability) : ofName? m.name = some m := by
  cases m <;> decide

/-- The mutability of an item's JSON fields. Where `stateMutability` is absent or null, the
older flags `payable` and `constant` decide, and `default` is for items that say nothing. -/
def ofFields (fields : List (Utf16 × Json)) (default : Mutability) :
    Except Failure Mutability :=
  match Json.field? fields "stateMutability" with
  | none | some .null =>
    if isSet "payable" then .ok payable
    else if isSet "constant" then .ok view
    else .ok default
  | some (.string t) =>
    match t.toString?.bind ofName? with
    | some m => .ok m
    | none => .error (.decode (.unknownMutability (.string t)))
  | some found => .error (.decode (.unknownMutability found))
where
  isSet (key : String) : Bool :=
    match Json.field? fields key with
    | none => false
    | some x => !x.isFalsy

/-- The mutability in JSON. What is no object has no fields to look for. -/
def ofJson (x : Json) (default : Mutability) : Except Failure Mutability :=
  match x with
  | .object fields => ofFields fields default
  | found => .error (.missingField found.typeName "get")

end Mutability

end ContractInterface
