import ContractInterface.Signature
import ContractInterface.TypedData.Definition
import ContractInterface.TypedData.Elementary

/-! Struct definitions in order of arrival, and the encoding text of a struct: its definition
followed by those of all structs it refers to, directly or through others, sorted by name. -/
namespace ContractInterface.TypedData

/-- A member of a checked definition. The type is kept as text. -/
structure StructField where
  ty : String
  name : String
  deriving DecidableEq

/-- A checked definition, free of the text it was read from. -/
structure Struct where
  name : String
  fields : List StructField
  deriving DecidableEq

namespace StructField

def ofMember (m : Member) : Except Failure StructField := do
  let name ← checkIdentifier m.name (some "property name") false
  .ok ⟨m.ty.span, name⟩

/-- The names in the type, from left to right. -/
def rootNames (f : StructField) : Except Failure (List String) :=
  (TypeSpec.parse f.ty).map TypeSpec.rootNames

def text (f : StructField) : String := f.ty ++ " " ++ f.name

end StructField

namespace Struct

def ofDefinition (d : Definition) : Except Failure Struct := do
  let name ← checkIdentifier d.name (some "struct name") false
  let fields ← d.members.mapM StructField.ofMember
  .ok ⟨name, fields⟩

/-- The definition alone, `Name(type name,...)`. -/
def text (s : Struct) : String := s.name ++ "(" ++ ",".intercalate (s.fields.map (·.text)) ++ ")"

/-- Add the names that are not elementary and not yet there, in order. -/
def addReferences (elementary : String → Bool) (known names : List String) : List String :=
  names.foldl (fun known n => if elementary n || known.contains n then known else known ++ [n])
    known

/-- The names in the fields that are not elementary, in order of first occurrence. -/
def referencesBy (elementary : String → Bool) (s : Struct) : Except Failure (List String) :=
  s.fields.foldlM (fun known f => f.rootNames.map (addReferences elementary known)) []

/-- The structs that the fields refer to. -/
def references (s : Struct) : Except Failure (List String) := s.referencesBy isElementary

end Struct

/-- Definitions in order of arrival, at most one of each name. -/
structure Resolver where
  structs : List Struct

namespace Resolver

def empty : Resolver := ⟨[]⟩

def find? (r : Resolver) (name : String) : Option Struct := r.structs.find? (·.name == name)

def contains (r : Resolver) (name : String) : Bool := (r.find? name).isSome

def get (r : Resolver) (name : String) : Except Failure Struct :=
  match r.find? name with
  | some s => .ok s
  | none => .error (.missingStruct name)

def names (r : Resolver) : List String := r.structs.map (·.name)

/-- Take in a definition. One that is known already changes nothing; another one of a known
name is refused. -/
def ingest (r : Resolver) (s : Struct) : Except Failure Resolver :=
  match r.find? s.name with
  | none => .ok ⟨r.structs ++ [s]⟩
  | some known => if known = s then .ok r else .error (.conflictingStructs s.name)

/-- Taking in a definition, as an operation on the resolver. -/
def taking (s : Struct) : Operation Resolver Unit := do
  let r ← MonadState.get
  match r.find? s.name with
  | none => set (Resolver.mk (r.structs ++ [s]))
  | some known => if known ≠ s then throw (.conflictingStructs s.name) else return ()

def ofStructs (structs : List Struct) : Except Failure Resolver := structs.foldlM ingest empty

/-- Check and take in definitions one after the other. -/
def ofDefinitions (definitions : List Definition) : Except Failure Resolver :=
  definitions.foldlM (fun r d => Struct.ofDefinition d >>= r.ingest) empty

def parse (text : String) : Except Failure Resolver := do
  let reading ← Reading.parse text
  ofDefinitions reading.definitions

/-- How many definitions have a name that was not seen. -/
def unseen (r : Resolver) (seen : List String) : Nat :=
  r.structs.countP fun s => !seen.contains s.name

theorem unseen_lt {r : Resolver} {seen : List String} {name : String} {s : Struct}
    (hn : seen.contains name = false) (h : r.get name = .ok s) :
    r.unseen (name :: seen) < r.unseen seen := by
  have hf : r.find? name = some s := by
    unfold get at h
    split at h
    · next s' hs => cases h; exact hs
    · cases h
  have hname : s.name = name := by simpa using List.find?_some hf
  have hmem : s ∈ r.structs := List.mem_of_find?_eq_some hf
  unfold unseen
  obtain ⟨before, after, hsplit⟩ := List.append_of_mem hmem
  have mono : ∀ xs : List Struct, xs.countP (fun s => !(name :: seen).contains s.name) ≤
      xs.countP (fun s => !seen.contains s.name) := by
    intro xs
    apply List.countP_mono_left
    intro x _ hx
    simp only [List.contains_cons, Bool.not_or, Bool.and_eq_true] at hx
    exact hx.2
  rw [hsplit]
  simp only [List.countP_append, List.countP_cons, hname, List.contains_cons, beq_self_eq_true,
    Bool.true_or, Bool.not_true, hn, Bool.not_false, if_true]
  have h1 := mono before
  have h2 := mono after
  simp only [List.contains_cons] at h1 h2
  simp only [Bool.false_eq_true, if_false]
  omega

/-- The names reached from a stack of names, on top of those seen before. A name is marked as
seen before its definition is looked up, and the structs that it refers to go on the stack
with the last one on top. -/
def reach (elementary : String → Bool) (r : Resolver) (seen stack : List String) :
    Except Failure (List String) :=
  match stack with
  | [] => .ok seen
  | name :: stack =>
    match hn : seen.contains name with
    | true => r.reach elementary seen stack
    | false =>
      match h : r.get name with
      | .error e => .error e
      | .ok s =>
        match s.referencesBy elementary with
        | .error e => .error e
        | .ok names =>
          have := unseen_lt hn h
          r.reach elementary (name :: seen) (names.reverse ++ stack)
termination_by (r.unseen seen, stack.length)

/-- The struct of the given name, then all that it refers to in order of their names. Which
names need no struct is left open. -/
def linearizeBy (elementary : String → Bool) (r : Resolver) (name : String) :
    Except Failure (List Struct) := do
  let first ← r.get name
  let names ← first.referencesBy elementary
  let seen ← r.reach elementary [first.name] names.reverse
  let others := (seen.filter (· ≠ first.name)).mergeSort (fun a b => decide (a ≤ b))
  let structs ← others.mapM r.get
  .ok (first :: structs)

def encodeTypeBy (elementary : String → Bool) (r : Resolver) (name : String) :
    Except Failure String :=
  (r.linearizeBy elementary name).map fun structs => String.join (structs.map (·.text))

/-- The hash of the encoding text, by a hash function. -/
def typeHashBy (elementary : String → Bool) (hash : String → List UInt8) (r : Resolver)
    (name : String) : Except Failure (List UInt8) := (r.encodeTypeBy elementary name).map hash

def linearize (r : Resolver) (name : String) : Except Failure (List Struct) :=
  r.linearizeBy isElementary name

/-- The encoding text of a struct. -/
def encodeType (r : Resolver) (name : String) : Except Failure String :=
  r.encodeTypeBy isElementary name

def typeHash (r : Resolver) (name : String) : Except Failure (List UInt8) :=
  r.typeHashBy isElementary Keccak.hashText name

end Resolver

end ContractInterface.TypedData
