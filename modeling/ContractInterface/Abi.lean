import ContractInterface.Item.Object
import ContractInterface.Log.Record

/-! A whole interface. There is at most one constructor, one fallback and one receive function;
functions, events and errors are grouped by name, names in order of first occurrence and the
overloads of a name in order of arrival. -/
namespace ContractInterface

/-- Items of one kind, grouped by name. -/
abbrev Overloads (α : Type) := List (String × List α)

namespace Overloads

/-- Put an item behind the others of its name. A new name goes last. -/
def push {α : Type} (groups : Overloads α) (name : String) (x : α) : Overloads α :=
  match groups with
  | [] => [(name, [x])]
  | (key, xs) :: rest =>
    if key = name then (key, xs ++ [x]) :: rest else (key, xs) :: push rest name x

def all {α : Type} (groups : Overloads α) : List α := groups.flatMap (·.2)

end Overloads

structure Abi where
  constructor : Option ConstructorItem := none
  fallback : Option Mutability := none
  receive : Option Mutability := none
  functions : Overloads FunctionItem := []
  events : Overloads EventItem := []
  errors : Overloads ErrorItem := []

namespace Abi

def empty : Abi := {}

/-- Add an item. A second constructor, fallback or receive function is refused. -/
def add (abi : Abi) : Item → Except Failure Abi
  | .constructor c =>
    if abi.constructor.isSome then .error (.decode (.repeated .constructor))
    else .ok { abi with constructor := some c }
  | .fallback m =>
    if abi.fallback.isSome then .error (.decode (.repeated .fallback))
    else .ok { abi with fallback := some m }
  | .receive m =>
    if abi.receive.isSome then .error (.decode (.repeated .receive))
    else .ok { abi with receive := some m }
  | .function f => .ok { abi with functions := abi.functions.push f.name f }
  | .event e => .ok { abi with events := abi.events.push e.name e }
  | .error e => .ok { abi with errors := abi.errors.push e.name e }

def addObject (abi : Abi) (o : Object) : Except Failure Abi := o.toItem >>= abi.add

/-- Adding an object, as an operation on the interface. Each kind of item has its own place, and
what stands alone is put there only if the place is free. -/
def adding (o : Object) : Operation Abi Unit := do
  match ← o.toItem with
  | .function f => modify fun abi => { abi with functions := abi.functions.push f.name f }
  | .event e => modify fun abi => { abi with events := abi.events.push e.name e }
  | .error e => modify fun abi => { abi with errors := abi.errors.push e.name e }
  | .constructor c =>
    if (← get).constructor.isSome then throw (.decode (.repeated .constructor))
    else modify fun abi => { abi with constructor := some c }
  | .fallback m =>
    if (← get).fallback.isSome then throw (.decode (.repeated .fallback))
    else modify fun abi => { abi with fallback := some m }
  | .receive m =>
    if (← get).receive.isSome then throw (.decode (.repeated .receive))
    else modify fun abi => { abi with receive := some m }

def ofItems (items : List Item) : Except Failure Abi := items.foldlM add empty

def ofObjects (objects : List Object) : Except Failure Abi := objects.foldlM addObject empty

/-- The list of items in a decoded file: the value itself, or the field `abi` of an object. -/
def itemsOfJson (x : Json) : Except Failure (List Json) :=
  let x := match x with
    | .object fields => (Json.field? fields "abi").getD x
    | x => x
  match x with
  | .array items => .ok items
  | found => .error (.decode (.interfaceShape found))

/-- Decode the items one by one, adding each before the next is looked at. -/
def ofJson (x : Json) : Except Failure Abi := do
  let items ← itemsOfJson x
  items.foldlM (fun abi x => Item.ofJson x >>= abi.add) empty

/-- All items: constructor, fallback and receive function, then functions, events, errors. -/
def items (abi : Abi) : List Item :=
  (abi.constructor.map Item.constructor).toList ++ (abi.fallback.map Item.fallback).toList ++
    (abi.receive.map Item.receive).toList ++ abi.functions.all.map Item.function ++
    abi.events.all.map Item.event ++ abi.errors.all.map Item.error

def size (abi : Abi) : Nat := abi.items.length

def toJsons (abi : Abi) : List Json := abi.items.map Item.toJson

section

variable (hash : String → List UInt8) (abi : Abi)

/-- Map the signature of every function to its selector by a hash function, in base 16 and in order
of first occurrence. A signature that occurs again is reported. -/
def functionSelectorsBy : List (String × String) × List Log.Record :=
  abi.functions.all.foldl
    (fun (known, log) f =>
      let s := f.signature
      if known.any (·.1 == s) then
        (known, log ++
          [⟨Log.warning, "abi", "function_selectors", s!"Duplicate function signature {s} in ABI"⟩])
      else (known ++ [(s, Hex.encode (selectorBy hash s))], log))
    ([], [])

/-- The first error with the given selector. -/
def errorBySelectorBy? (bytes : List UInt8) : Option ErrorItem :=
  abi.errors.all.find? fun e => selectorBy hash e.signature == bytes

/-- The first error with the selector that a text writes in base 16, with or without one
leading `0x`. -/
def errorBySelectorTextBy? (s : String) : Except Failure (Option ErrorItem) :=
  match Hex.decode? (Hex.dropMarker s.toList) with
  | none => .error (.hexText s)
  | some bytes => .ok (errorBySelectorBy? hash abi bytes)

/-- What is told of an item in one line. -/
def line (kind : Kind) (signature : String) (bytes : List UInt8) : String :=
  kind.tag ++ " " ++ signature ++ " " ++ Hex.encode bytes

/-- One line for each function, event and error: its kind, signature and selector. -/
def describeBy : List String :=
  abi.functions.all.map (fun f => line .function f.signature (selectorBy hash f.signature)) ++
    abi.events.all.map (fun e => line .event e.signature (hash e.signature)) ++
    abi.errors.all.map (fun e => line .error e.signature (selectorBy hash e.signature))

end

def functionSelectors : Abi → List (String × String) × List Log.Record :=
  functionSelectorsBy Keccak.hashText

def errorBySelector? : Abi → List UInt8 → Option ErrorItem := errorBySelectorBy? Keccak.hashText

def errorBySelectorText? : Abi → String → Except Failure (Option ErrorItem) :=
  errorBySelectorTextBy? Keccak.hashText

def describe : Abi → List String := describeBy Keccak.hashText

end Abi

end ContractInterface
