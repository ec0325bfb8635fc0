import ContractInterface.Failure
import ContractInterface.Identifier
import ContractInterface.Text.Blank
import ContractInterface.Text.Numeral

/-! The reading of types by recursive descent. A type is an identifier or a tuple followed by
dimensions; a tuple is a comma-separated list in parentheses, with or without the word `tuple`
in front, and only inside it may blanks stand around the members. Each step returns what is
left of the text, and a fault carries the number of characters that were left. -/
namespace ContractInterface.TypeSpec

/-- The part of `cs` that was read when `rest` is left of it. -/
def consumed (cs rest : List Char) : String :=
  String.ofList (cs.take (cs.length - rest.length))

/-- Why reading stopped: a fault of the text, or a size of too many digits. -/
inductive Halt
  | fault (fault : TypeFault)
  | digitLimit (digits : Nat)

def halt {α : Type} (fault : TypeFault) : Except Halt α := .error (.fault fault)

/-- The size that the digits of a dimension write, `none` if there are none. -/
def dimension (digits : List Char) : Except Halt (Option Nat) :=
  if digits.isEmpty then .ok none
  else if Text.digitLimit < digits.length then .error (.digitLimit digits.length)
  else if Text.asciiNumber digits = 0 then halt .zeroDimension
  else .ok (some (Text.asciiNumber digits))

/-- The text behind the opening parenthesis of a tuple. -/
def tupleBody? : List Char → Option (List Char)
  | '(' :: r => some r
  | 't' :: 'u' :: 'p' :: 'l' :: 'e' :: '(' :: r => some r
  | _ => none

/-- All dimensions at the start of a text. -/
def dimensions (cs : List Char) : Except Halt (List (Option Nat) × List Char) :=
  match cs with
  | '[' :: r =>
    match h : r.dropWhile Char.isDigit with
    | ']' :: rest => do
      let n ← dimension (r.takeWhile Char.isDigit)
      let (ns, rest) ← dimensions rest
      .ok (n :: ns, rest)
    | _ => halt (.badDimension (r.length + 1))
  | r => .ok ([], r)
termination_by cs.length
decreasing_by
  have := Text.length_dropWhile_le Char.isDigit r
  rw [h] at this
  simp only [List.length_cons] at this ⊢
  omega

/-- The members of a tuple that has at least one, each read by `member`, up to the closing
parenthesis. The number bounds the members; the length of the text is enough. -/
def members (member : List Char → Except Halt (TypeSpec × List Char)) :
    Nat → List Char → Except Halt (List TypeSpec × List Char)
  | 0, _ => halt .unclosedTuple
  | n + 1, cs => do
    let (t, rest) ← member (Text.dropBlank cs)
    match Text.dropBlank rest with
    | [] => halt .unclosedTuple
    | ',' :: r =>
      let (ts, rest) ← members member n r
      .ok (t :: ts, rest)
    | ')' :: r => .ok ([t], r)
    | c :: r => halt (.separatorExpected (.char c) (r.length + 1))

/-- The members of a tuple and what follows its closing parenthesis. -/
def inside (member : List Char → Except Halt (TypeSpec × List Char)) (cs : List Char) :
    Except Halt (List TypeSpec × List Char) :=
  match Text.dropBlank cs with
  | ')' :: r => .ok ([], r)
  | r => members member (r.length + 1) r

/-- A type at the very start of a text, in which as many tuples may be open inside one another
as the first argument says. -/
def read : Nat → List Char → Except Halt (TypeSpec × List Char)
  | nesting, cs =>
    match tupleBody? cs with
    | none =>
      match Identifier.split? cs with
      | none => halt (.nameExpected cs.length)
      | some (name, rest) => do
        let (sizes, rest) ← dimensions rest
        .ok (.named (consumed cs rest) (String.ofList name) sizes, rest)
    | some body =>
      match nesting with
      | 0 => halt .tooDeep
      | nesting + 1 => do
        let (ts, stem) ← inside (read nesting) body
        let (sizes, rest) ← dimensions stem
        .ok (.tuple (consumed cs rest) (consumed cs stem) ts sizes, rest)

/-- The type that is the whole of a trimmed text. -/
def whole (cs : List Char) : Except Halt TypeSpec :=
  if cs.isEmpty then halt .empty
  else do
    let (t, rest) ← read maxNesting cs
    match rest with
    | [] => .ok t
    | c :: r => halt (.unexpected (.char c) (r.length + 1))

def Halt.failure (text : Utf16) (length : Nat) : Halt → Failure
  | .fault f => .typeText text (f.fromStart length)
  | .digitLimit n => .digitLimit n

/-- Read a type with blanks around it. -/
def parse (s : String) : Except Failure TypeSpec :=
  let cs := Text.trim s.toList
  (whole cs).mapError (Halt.failure s cs.length)

/-- Why a text with half of a surrogate pair is no type. The half is read as U+FFFD, which no
type has in it either, and is shown as it stands where the fault lies there. -/
def refusal (t : Utf16) : Failure :=
  let cs := t.replaced.toList
  let trimmed := Text.trim cs
  match whole trimmed with
  | .error (.digitLimit n) => .digitLimit n
  | .error (.fault f) =>
    .typeText t ((f.fromStart trimmed.length).showing
      (t.points.drop (cs.length - (Text.dropBlank cs).length)))
  | .ok _ => .typeText t .empty

/-- Read a type from JSON. -/
def ofText (t : Utf16) : Except Failure TypeSpec :=
  match t.toString? with
  | some s => parse s
  | none => .error (refusal t)

end ContractInterface.TypeSpec
