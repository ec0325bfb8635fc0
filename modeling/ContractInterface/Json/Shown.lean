import ContractInterface.Json.Value
import ContractInterface.Decimal.Shortest

/-! JSON values as messages show them: texts in quotes, lists in brackets, objects in braces
in field order, and the words `None`, `True` and `False`. -/
namespace ContractInterface.Json

def shown : Json → String
  | null => "None"
  | bool true => "True"
  | bool false => "False"
  | int n => toString n
  | float x => x.text ⟨"nan", "inf"⟩
  | string t => t.quoted
  | array items => "[" ++ ", ".intercalate (shownItems items) ++ "]"
  | object fields => "\x7b" ++ ", ".intercalate (shownFields fields) ++ "\x7d"
where
  shownItems : List Json → List String
    | [] => []
    | x :: xs => shown x :: shownItems xs
  shownFields : List (Utf16 × Json) → List String
    | [] => []
    | (key, x) :: fs => (key.quoted ++ ": " ++ shown x) :: shownFields fs

end ContractInterface.Json
