import ContractInterface.InternalType
import ContractInterface.TypeSpec.Reader

/-! Parameters of functions, errors and events. A tuple is typed `tuple` with dimensions, and
its members are the components. -/
namespace ContractInterface

/-- A parameter. `indexed` is set for the inputs of events, where it says whether the value is
a topic of the log; other parameters have none. -/
structure Param where
  name : String
  ty : String
  components : List Param
  internalType : Option InternalType
  indexed : Option Bool

namespace Param

mutual

def decEq : (p q : Param) → Decidable (p = q)
  | ⟨n, t, cs, i, x⟩, ⟨n', t', cs', i', x'⟩ =>
    have := decEqList cs cs'
    decidable_of_iff (n = n' ∧ t = t' ∧ cs = cs' ∧ i = i' ∧ x = x') (by simp)

def decEqList : (ps qs : List Param) → Decidable (ps = qs)
  | [], [] => .isTrue rfl
  | [], _ :: _ => .isFalse (by simp)
  | _ :: _, [] => .isFalse (by simp)
  | p :: ps, q :: qs =>
    have := decEq p q
    have := decEqList ps qs
    decidable_of_iff (p = q ∧ ps = qs) (by simp)

end

instance : DecidableEq Param := decEq

/-- The word by which the type of a tuple begins. -/
def tupleWord : String := "tuple"

/-- What follows the word `tuple` in the type of a tuple or an array of tuples: nothing, or
dimensions. -/
def tupleSuffix? (ty : List Char) : Option (List Char) :=
  match ty with
  | 't' :: 'u' :: 'p' :: 'l' :: 'e' :: r =>
    match r with
    | [] => some []
    | '[' :: r => some ('[' :: r)
    | _ => none
  | _ => none

def isTuple (p : Param) : Bool := (tupleSuffix? p.ty.toList).isSome

def isStruct (p : Param) : Bool := p.internalType.any (·.isStruct)

mutual

/-- The type as signatures show it: a tuple is written out by its members. -/
def canonicalType : Param → String
  | ⟨_, ty, components, _, _⟩ =>
    match tupleSuffix? ty.toList with
    | none => ty
    | some suffix =>
      "(" ++ ",".intercalate (canonicalTypes components) ++ ")" ++ String.ofList suffix

def canonicalTypes : List Param → List String
  | [] => []
  | p :: ps => canonicalType p :: canonicalTypes ps

end

theorem canonicalTypes_eq_map (ps : List Param) : canonicalTypes ps = ps.map canonicalType := by
  induction ps with
  | nil => rfl
  | cons p ps ih => simp [canonicalTypes, ih]

mutual

/-- The parameter of a type. Members of a tuple become unnamed components. `annotate` gives
each node, members included, its annotation. -/
def ofTypeSpec (annotate : TypeSpec → Option InternalType) (name : String) : TypeSpec → Param
  | t@(.named span _ _) => ⟨name, span, [], annotate t, none⟩
  | t@(.tuple _ _ ms _) =>
    ⟨name, tupleWord ++ t.arraySuffix, ofMembers annotate ms, annotate t, none⟩

def ofMembers (annotate : TypeSpec → Option InternalType) : List TypeSpec → List Param
  | [] => []
  | t :: ts => ofTypeSpec annotate "" t :: ofMembers annotate ts

end

/-- Read a parameter of the given name from the text of its type. -/
def parse (ty name : String) : Except Failure Param :=
  (TypeSpec.parse ty).map (ofTypeSpec (fun _ => none) name)

/-- The input of an event that is otherwise the given parameter. -/
def asEventInput (p : Param) (indexed : Bool) : Param := { p with indexed := some indexed }

end Param

end ContractInterface
