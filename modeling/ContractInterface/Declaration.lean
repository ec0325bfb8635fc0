import ContractInterface.Param.Basic
import ContractInterface.TopLevel

/-! Declarations as people write them: `transfer(address to,uint256)(bool)`. Commas at the
outermost level part the parameters, and the first blank of a parameter parts its type from
its name, so a type has no blanks in it. -/
namespace ContractInterface

/-- A name with its inputs and, if a second list was written, its outputs. -/
structure Declaration where
  name : String
  inputs : List Param
  outputs : Option (List Param)

namespace Declaration

/-- The first word of a text and all that follows it from its next word on. -/
def words (cs : List Char) : List Char × List Char :=
  let cs := Text.dropBlank cs
  (cs.takeWhile (!Text.isBlank ·), Text.dropBlank (cs.dropWhile (!Text.isBlank ·)))

/-- Read one parameter. Its annotation, and that of each member, is the text of the type. -/
def parseParam (text : String) (requireName : Bool) : Except Failure Param := do
  let (ty, name) := words text.toList
  if ty.isEmpty || (requireName && name.isEmpty) then .error (.paramShape text)
  else
    let name ← checkIdentifier (String.ofList name) (some "parameter name") (!requireName)
    let t ← TypeSpec.parse (String.ofList ty)
    .ok (Param.ofTypeSpec (fun t => some (InternalType.parse t.span)) name t)

/-- The parameters of the list that begins at the start of `cs`, behind its opening
parenthesis, and what follows the list. A fault names the whole text. -/
def readParams (text : String) (requireNames : Bool) (cs : List Char) :
    Except Failure (List Param × List Char) := do
  let (pieces, rest) ← (TopLevel.cut ',' 1 cs).mapError (Failure.typeText text)
  let params ← pieces.mapM fun piece => parseParam (String.ofList piece) requireNames
  .ok (params, rest)

/-- Read the list whose opening parenthesis stands just before `start`. The number is the place
just behind its closing one. -/
def parseParams (text : String) (start : Nat) (requireNames : Bool) :
    Except Failure (List Param × Nat) :=
  (readParams text requireNames (text.toList.drop start)).map fun (params, rest) =>
    (params, text.length - rest.length)

/-- Read a name and its one or two lists. Nothing may follow the last list. -/
def parse (text : String) (requireNames allowOutputs : Bool) : Except Failure Declaration := do
  let text := Text.trimmed text
  let cs := text.toList
  match cs.dropWhile (· ≠ '(') with
  | [] => .error (.typeText text .noList)
  | _ :: body =>
    let name ← checkIdentifier (String.ofList (cs.takeWhile (· ≠ '(')))
      (some "signature name") false
    let (inputs, rest) ← readParams text requireNames body
    let (outputs, rest) ← match allowOutputs, rest with
      | true, '(' :: body => (readParams text requireNames body).map fun (ps, r) => (some ps, r)
      | _, _ => .ok (none, rest)
    if rest.isEmpty then .ok ⟨name, inputs, outputs⟩
    else .error (.typeText text (.textAfterList (String.ofList rest)))

/-- Every parameter of an error is named, and there is no second list. -/
def parseError (text : String) : Except Failure Declaration := parse text true false

/-- The parameters of a function need no names, and its outputs may follow. -/
def parseFunction (text : String) : Except Failure Declaration := parse text false true

end Declaration

end ContractInterface
