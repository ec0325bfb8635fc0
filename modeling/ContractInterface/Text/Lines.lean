/-! Line breaks. Three spellings of a break are in use, and texts are read with one of them. -/
namespace ContractInterface.Text

/-- Every line break as a line feed. -/
def unifyLines : List Char → List Char
  | '\r' :: '\n' :: r => '\n' :: unifyLines r
  | '\r' :: r => '\n' :: unifyLines r
  | c :: r => c :: unifyLines r
  | [] => []

end ContractInterface.Text
