import ContractInterface.Declaration

/-! Lists that begin a number of characters before the end of a text. When the scan has come to the
end it goes on at the start of the text, and runs over the whole of it. A piece that begins before
the turn has its text in one stretch, from where it begins up to where it is cut. -/
namespace ContractInterface.TopLevel

/-- The piece that begins at `first` and has the given length, both counted from where the scan
began, which was `back` characters before the end of the text. -/
def pieceAt (text : List Char) (back first : Nat) (piece : List Char) : List Char :=
  let cut := first + piece.length
  if first < back ∧ back ≤ cut then (text.take (cut - back)).drop (text.length - back + first)
  else piece

/-- Pieces one behind the other, the first of which begins at `first`. -/
def piecesAt (text : List Char) (back : Nat) : Nat → List (List Char) → List (List Char)
  | _, [] => []
  | first, piece :: pieces =>
    pieceAt text back first piece :: piecesAt text back (first + piece.length + 1) pieces

/-- Cut a text from `back` characters before its end. The number is the place just behind the list,
and negative if that lies before the turn. -/
def cutWrapped (delimiter : Char) (depth : Nat) (text : String) (back : Nat) :
    Except Failure (List (List Char) × Int) :=
  let cs := text.toList
  if cs.length < back then .error .outOfText
  else
    match scan delimiter depth depth (cs.drop (cs.length - back) ++ cs) with
    | .error fault => .error (.typeText text fault)
    | .ok (pieces, rest) =>
      .ok (dropBlankBody (piecesAt cs back 0 pieces), (cs.length : Int) - rest.length)

def splitWrapped (text delimiter : String) (depth : Int) (back : Nat) :
    Except Failure (List String × Int) :=
  match delimiter.toList with
  | [d] =>
    if depth < 0 then .error .negativeDepth
    else (cutWrapped d depth.toNat text back).map fun (ps, last) => (ps.map String.ofList, last)
  | _ => .error (.delimiter delimiter)

example : (splitWrapped "a,b" "," 0 1).toOption = some (["", "b"], 3) := by decide +kernel

end ContractInterface.TopLevel

namespace ContractInterface

/-- Read the parameters of a list that begins `back` characters before the end of a text. -/
def Declaration.parseParamsWrapped (text : String) (back : Nat) (requireNames : Bool) :
    Except Failure (List Param × Int) := do
  let (pieces, last) ← TopLevel.cutWrapped ',' 1 text back
  let params ← pieces.mapM fun piece => parseParam (String.ofList piece) requireNames
  .ok (params, last)

end ContractInterface
