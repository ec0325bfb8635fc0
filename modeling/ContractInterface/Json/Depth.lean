import ContractInterface.Json.Reader

/-! The reading of JSON text from outside, in which lists and objects lie inside one another only so
deep. A flaw in front of the bracket that lies too deep comes first. -/
namespace ContractInterface.Json

/-- Brackets may be open inside one another up to this many. -/
def maxDepth : Nat := 988

/-- Whether a place lies outside of quotes, inside, or behind a backslash inside. -/
inductive Quoting
  | outside
  | inside
  | escaped

/-- The place of the first bracket that lies too deep, where `depth` are open and `place` characters
are passed. -/
def tooDeep? (quoting : Quoting) (depth place : Nat) : List Char → Option (Nat × Bracket)
  | [] => none
  | c :: r =>
    match quoting, c with
    | .escaped, _ => tooDeep? .inside depth (place + 1) r
    | .inside, '\\' => tooDeep? .escaped depth (place + 1) r
    | .inside, '"' => tooDeep? .outside depth (place + 1) r
    | .inside, _ => tooDeep? .inside depth (place + 1) r
    | .outside, '"' => tooDeep? .inside depth (place + 1) r
    | .outside, c =>
      match Bracket.ofChar? c with
      | some bracket =>
        if maxDepth ≤ depth then some (place, bracket)
        else tooDeep? .outside (depth + 1) (place + 1) r
      | none =>
        tooDeep? .outside (if c = ']' || c = '\x7d' then depth - 1 else depth) (place + 1) r

/-- Read a JSON text that is not too deep. -/
def read (s : String) : Except Fault Json :=
  match tooDeep? .outside 0 0 s.toList with
  | none => parse s
  | some (place, bracket) =>
    match parse (String.ofList (s.toList.take (place + 1))) with
    | .error (.flaw f line column position) =>
      if position ≤ place then .error (.flaw f line column position)
      else .error (.tooDeep bracket)
    | .error fault => .error fault
    | .ok _ => .error (.tooDeep bracket)

end ContractInterface.Json
