import ContractInterface.Item.Listing
import ContractInterface.Item.Object

/-! Items that are shared by wrappers. A wrapper refers to an item by its place in the store and
either owns it or borrows it. Writing through a wrapper that borrows first puts a copy of the
item into the store and makes the wrapper own it, so the item it borrowed stays as it is. -/
namespace ContractInterface

/-- A change of a parameter list. A negative place counts from the end of the list. -/
inductive Edit
  | append (p : Param)
  | insert (place : Int) (p : Param)
  | remove (place : Int)
  | clear
  | rename (place : Int) (name : String)
  | retype (place : Int) (ty : String)
  | addComponent (place : Int) (p : Param)

namespace Edit

/-- A place counted from the start, if it lies in a list of the given length. -/
def index? (length : Nat) (place : Int) : Option Nat :=
  let i := if place < 0 then place + length else place
  if 0 ≤ i && i < length then some i.toNat else none

/-- A place for a new element. Places outside the list stand for its nearer end. -/
def slot (length : Nat) (place : Int) : Nat :=
  min (if place < 0 then place + length else place).toNat length

def change (f : Param → Param) (place : Int) (ps : List Param) : Except Failure (List Param) :=
  match index? ps.length place with
  | none => .error (.outOfRange place)
  | some i => .ok (ps.modify i f)

def apply (ps : List Param) : Edit → Except Failure (List Param)
  | append p => .ok (ps ++ [p])
  | insert place p => .ok (ps.insertIdx (slot ps.length place) p)
  | remove place =>
    match index? ps.length place with
    | none => .error (.outOfRange place)
    | some i => .ok (ps.eraseIdx i)
  | clear => .ok []
  | rename place name => change (fun p => { p with name }) place ps
  | retype place ty => change (fun p => { p with ty }) place ps
  | addComponent place q =>
    change (fun p => { p with components := p.components ++ [q] }) place ps

end Edit

structure Wrapper where
  item : Nat
  owned : Bool
  deriving DecidableEq

structure Store where
  objects : List Object
  wrappers : List Wrapper

/-- What an operation on a store answers. An accessor that the item's kind does not have gives
`absent`. -/
inductive Answer
  | place (i : Nat)
  | flag (b : Bool)
  | length (n : Nat)
  | absent
  | refused (failure : Failure)

namespace Store

def empty : Store := ⟨[], []⟩

def item? (s : Store) (i : Nat) : Option Item := s.objects[i]?.bind Object.item?

/-- The item that a wrapper refers to. -/
def wrapped? (s : Store) (w : Nat) : Option Item := s.wrappers[w]?.bind fun x => s.item? x.item

/-- Put a new object into the store. -/
def add (s : Store) (o : Object) : Nat × Store :=
  (s.objects.length, { s with objects := s.objects ++ [o] })

def replaceItem (s : Store) (i : Nat) (x : Item) : Store :=
  { s with objects := s.objects.set i (.item x) }

/-- Refer to the item at a place by a new wrapper. -/
def wrap (s : Store) (i : Nat) (owned : Bool) : Answer × Store :=
  match s.objects[i]? with
  | none => (.refused (.outOfRange i), s)
  | some (.param _) => (.refused .notAnItem, s)
  | some (.item _) =>
    (.place s.wrappers.length, { s with wrappers := s.wrappers ++ [⟨i, owned⟩] })

/-- Put an item into the store and own it by a new wrapper. -/
def wrapNew (s : Store) (o : Object) : Answer × Store :=
  match o with
  | .param _ => (.refused .notAnItem, s)
  | .item _ =>
    let (i, s) := s.add o
    s.wrap i true

/-- Make a wrapper own its item: one that borrows is pointed to a copy. The number is the place
of the owned item. -/
def promote (s : Store) (w : Nat) : Except Failure (Nat × Store) :=
  match s.wrappers[w]?, s.wrapped? w with
  | some x, some item =>
    if x.owned then .ok (x.item, s)
    else
      let (i, s) := s.add (.item item)
      .ok (i, { s with wrappers := s.wrappers.set w ⟨i, true⟩ })
  | _, _ => .error (.outOfRange w)

/-- Write through a wrapper. An item to which the change does not apply is left alone, and its
wrapper goes on borrowing. -/
def update (s : Store) (w : Nat) (change : Item → Option Item) : Answer × Store :=
  match s.wrapped? w with
  | none => (.refused (.outOfRange w), s)
  | some item =>
    match change item with
    | none => (.flag false, s)
    | some changed =>
      match s.promote w with
      | .error e => (.refused e, s)
      | .ok (i, s) => (.flag true, s.replaceItem i changed)

def rename (s : Store) (w : Nat) (name : String) : Answer × Store :=
  s.update w (Item.rename? name)

def setMutability (s : Store) (w : Nat) (m : Mutability) : Answer × Store :=
  s.update w (Item.setMutability? m)

/-- Edit a list of the item at a place, in the store itself. -/
def editItem (s : Store) (i : Nat) (field : ListField) (edit : Edit) : Answer × Store :=
  match s.item? i with
  | none => (.refused (.outOfRange i), s)
  | some item =>
    match item.list? field with
    | none => (.absent, s)
    | some ps =>
      match edit.apply ps with
      | .error e => (.refused e, s)
      | .ok qs =>
        match item.setList? qs field with
        | none => (.absent, s)
        | some changed => (.length qs.length, s.replaceItem i changed)

/-- Edit a list through a wrapper. The wrapper owns its item before the edit is tried. -/
def edit (s : Store) (w : Nat) (field : ListField) (edit : Edit) : Answer × Store :=
  match s.wrapped? w with
  | none => (.refused (.outOfRange w), s)
  | some item =>
    match item.list? field with
    | none => (.absent, s)
    | some _ =>
      match s.promote w with
      | .error e => (.refused e, s)
      | .ok (i, s) => s.editItem i field edit

/-- Hand out the item of a wrapper: the item itself if the wrapper owns it, else a copy. -/
def handOut (s : Store) (w : Nat) : Answer × Store :=
  match s.wrappers[w]?, s.wrapped? w with
  | some x, some item =>
    if x.owned then (.place x.item, s)
    else
      let (i, s) := s.add (.item item)
      (.place i, s)
  | _, _ => (.refused (.outOfRange w), s)

def toOwned (s : Store) (w : Nat) : Answer × Store :=
  match s.promote w with
  | .error e => (.refused e, s)
  | .ok (i, s) => (.place i, s)

/-- Two wrappers are equal if their items are, whoever owns them. -/
def sameItem (s : Store) (w v : Nat) : Bool :=
  match s.wrapped? w, s.wrapped? v with
  | some x, some y => x = y
  | _, _ => false

/-- A wrapper's item with its ownership. -/
def listing? (s : Store) (w : Nat) : Option String := do
  let x ← s.wrappers[w]?
  let item ← s.wrapped? w
  let ownership := if x.owned then "owned" else "borrowed"
  some s!"AbiItem({item.listing}, {ownership})"

/-- The writing operations as data, for runs of any length. -/
inductive Action
  | add (o : Object)
  | wrap (item : Nat) (owned : Bool)
  | wrapNew (o : Object)
  | toOwned (w : Nat)
  | handOut (w : Nat)
  | rename (w : Nat) (name : String)
  | setMutability (w : Nat) (m : Mutability)
  | edit (w : Nat) (field : ListField) (edit : Edit)
  | editItem (item : Nat) (field : ListField) (edit : Edit)

def act (s : Store) : Action → Answer × Store
  | .add o => let (i, s) := s.add o; (.place i, s)
  | .wrap i owned => s.wrap i owned
  | .wrapNew o => s.wrapNew o
  | .toOwned w => s.toOwned w
  | .handOut w => s.handOut w
  | .rename w name => s.rename w name
  | .setMutability w m => s.setMutability w m
  | .edit w field e => s.edit w field e
  | .editItem i field e => s.editItem i field e

end Store

end ContractInterface
