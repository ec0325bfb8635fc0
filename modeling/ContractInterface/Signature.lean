import ContractInterface.Hex
import ContractInterface.Keccak
import ContractInterface.Param.Basic

/-! Canonical signatures and the selectors hashed from them. -/
namespace ContractInterface

/-- The types of a parameter list, in parentheses. -/
def Param.listText (ps : List Param) : String :=
  "(" ++ ",".intercalate (canonicalTypes ps) ++ ")"

/-- `name(inputs)`, followed by `(outputs)` where outputs are given. -/
def signature (name : String) (inputs : List Param) (outputs : Option (List Param)) : String :=
  name ++ Param.listText inputs ++
    match outputs with
    | none => ""
    | some ps => Param.listText ps

/-- The first four bytes of what a hash function gives for a signature. -/
def selectorBy (hash : String → List UInt8) (signature : String) : List UInt8 :=
  (hash signature).take 4

def selector (signature : String) : List UInt8 := selectorBy Keccak.hashText signature

end ContractInterface
