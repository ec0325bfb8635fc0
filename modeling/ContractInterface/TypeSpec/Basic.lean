/-! Types as written in interfaces: a name or a parenthesized list of types, followed by array
dimensions, as in `(address,uint256[])[3]`. Every node keeps the text it was read from. -/
namespace ContractInterface

/-- A type. `sizes` are the dimensions in textual order, `none` for the open `[]`. The `body`
of a tuple is its text without dimensions. -/
inductive TypeSpec
  | named (span name : String) (sizes : List (Option Nat))
  | tuple (span body : String) (members : List TypeSpec) (sizes : List (Option Nat))

/-- Tuples may be open inside one another up to this many. -/
def maxNesting : Nat := 64

namespace TypeSpec

def span : TypeSpec → String
  | named span _ _ => span
  | tuple span _ _ _ => span

def sizes : TypeSpec → List (Option Nat)
  | named _ _ sizes => sizes
  | tuple _ _ _ sizes => sizes

def isTuple : TypeSpec → Bool
  | named .. => false
  | tuple .. => true

def isArray (t : TypeSpec) : Bool := !t.sizes.isEmpty

/-- One dimension as text. A size has no leading zeros, whatever it was read from. -/
def dimensionText : Option Nat → String
  | none => "[]"
  | some n => "[" ++ toString n ++ "]"

def arraySuffix (t : TypeSpec) : String := String.join (t.sizes.map dimensionText)

/-- The names in a type, from left to right with repeats. -/
def rootNames : TypeSpec → List String
  | named _ name _ => [name]
  | tuple _ _ members _ => ofMembers members
where
  ofMembers : List TypeSpec → List String
    | [] => []
    | t :: ts => rootNames t ++ ofMembers ts

theorem rootNames_ofMembers (ts : List TypeSpec) :
    rootNames.ofMembers ts = ts.flatMap rootNames := by
  induction ts with
  | nil => rfl
  | cons t ts ih => simp [rootNames.ofMembers, ih]

@[simp] theorem rootNames_tuple (span body : String) (members : List TypeSpec)
    (sizes : List (Option Nat)) :
    (tuple span body members sizes).rootNames = members.flatMap rootNames := by
  simp [rootNames, rootNames_ofMembers]

end TypeSpec

end ContractInterface
