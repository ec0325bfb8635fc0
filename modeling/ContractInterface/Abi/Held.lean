import ContractInterface.Abi
import ContractInterface.Store

/-! Interfaces that are made from wrappers. Such an interface holds the very items that the wrappers
hand out, wherever they are in the store, so that a change of one of them shows in it. The groups
stay as they were made, whatever becomes of the names. -/
namespace ContractInterface

/-- An interface that refers to its items by their places in a store. -/
structure HeldAbi where
  constructor : Option Nat := none
  fallback : Option Nat := none
  receive : Option Nat := none
  functions : Overloads Nat := []
  events : Overloads Nat := []
  errors : Overloads Nat := []

namespace HeldAbi

/-- Hold the item at a place. A second constructor, fallback or receive function is refused. -/
def add (held : HeldAbi) (i : Nat) : Item → Except Failure HeldAbi
  | .constructor _ =>
    if held.constructor.isSome then .error (.decode (.repeated .constructor))
    else .ok { held with constructor := some i }
  | .fallback _ =>
    if held.fallback.isSome then .error (.decode (.repeated .fallback))
    else .ok { held with fallback := some i }
  | .receive _ =>
    if held.receive.isSome then .error (.decode (.repeated .receive))
    else .ok { held with receive := some i }
  | .function f => .ok { held with functions := held.functions.push f.name i }
  | .event e => .ok { held with events := held.events.push e.name i }
  | .error e => .ok { held with errors := held.errors.push e.name i }

/-- Let a wrapper hand out its item, and hold that. -/
def take (held : HeldAbi) (s : Store) (w : Nat) : Except Failure (HeldAbi × Store) :=
  match s.handOut w with
  | (.place i, t) =>
    match t.item? i with
    | some x => (held.add i x).map fun held => (held, t)
    | none => .error .notAnItem
  | _ => .error (.outOfRange w)

def takeAll (held : HeldAbi) (s : Store) : List Nat → Except Failure (HeldAbi × Store)
  | [] => .ok (held, s)
  | w :: ws => do
    let (held, s) ← held.take s w
    takeAll held s ws

/-- Make an interface from the items that wrappers hand out one by one. -/
def ofWrappers (s : Store) (ws : List Nat) : Except Failure (HeldAbi × Store) := takeAll {} s ws

end HeldAbi

end ContractInterface
