import ContractInterface.Text.Numeral

/-! Elementary types: those whose values are encoded without a struct definition. A type is
spelled without blanks and without empty tuples, sizes have no leading zeros, and the short
names `uint`, `fixed` and the like stand for one of their sizes. Arrays and tuples lie inside one
another only so deep. -/
namespace ContractInterface.TypedData.Elementary

/-- The letters of a type with up to two sizes, as in `uint256` and `fixed128x18`. -/
structure Plain where
  base : String
  size : Option Nat
  places : Option Nat

/-- A size at the start of a text. What has too many digits to be read is none. -/
def size? (cs : List Char) : Option (Nat × List Char) :=
  match cs.takeWhile Char.isDigit with
  | [] | '0' :: _ => none
  | ds =>
    if Text.digitLimit < ds.length then none
    else some (Text.asciiNumber ds, cs.dropWhile Char.isDigit)

/-- A name that stands for a longer one. -/
def expand (t : Plain) : Plain :=
  if t.size.isSome then t
  else
    match t.base with
    | "int" => ⟨"int", some 256, none⟩
    | "uint" => ⟨"uint", some 256, none⟩
    | "fixed" => ⟨"fixed", some 128, some 18⟩
    | "ufixed" => ⟨"ufixed", some 128, some 18⟩
    | "function" => ⟨"bytes", some 24, none⟩
    | "byte" => ⟨"bytes", some 1, none⟩
    | _ => t

def isBits (n : Nat) : Bool := 8 ≤ n && n ≤ 256 && n % 8 = 0

/-- A type that has an encoding, all names being expanded. -/
def isEncodable (t : Plain) : Bool :=
  match t.base, t.size, t.places with
  | "int", some n, none | "uint", some n, none => isBits n
  | "fixed", some n, some p | "ufixed", some n, some p => isBits n && 1 ≤ p && p ≤ 80
  | "bytes", none, none | "string", none, none | "address", none, none => true
  | "bytes", some n, none => n ≤ 32
  | "bool", _, _ => true
  | _, _, _ => false

/-- A plain type at the start of a text. -/
def plain? (cs : List Char) : Option (Plain × List Char) :=
  let base := cs.takeWhile Char.isAlpha
  let rest := cs.dropWhile Char.isAlpha
  if base.isEmpty then none
  else
    match size? rest with
    | none => some (⟨String.ofList base, none, none⟩, rest)
    | some (n, r) =>
      match r with
      | 'x' :: r' =>
        match size? r' with
        | some (p, r'') => some (⟨String.ofList base, some n, some p⟩, r'')
        | none => some (⟨String.ofList base, some n, none⟩, r)
      | _ => some (⟨String.ofList base, some n, none⟩, r)

/-- The count of the dimensions at the start of a text and what follows them. The number bounds
the count. -/
def dimensions : Nat → List Char → Nat × List Char
  | n + 1, '[' :: r =>
    match r with
    | ']' :: r =>
      let (count, rest) := dimensions n r
      (count + 1, rest)
    | _ =>
      match size? r with
      | some (_, ']' :: r) =>
        let (count, rest) := dimensions n r
        (count + 1, rest)
      | _ => (0, '[' :: r)
  | _, cs => (0, cs)

/-- Whether a type is encodable, and how many steps inside one another it takes to read its text
and to find its encoder. -/
structure Shape where
  encodable : Bool
  reading : Nat
  search : Nat

namespace Shape

def plain (t : Plain) : Shape := ⟨isEncodable (expand t), 0, 0⟩

/-- An array finds the encoder of its items five steps further in. -/
def array (dimensions : Nat) (s : Shape) : Shape := { s with search := 5 * dimensions + s.search }

/-- A tuple of one member, whose text is read the given number of steps further in. A type is read
before its encoder is sought, and those of its members are found six steps further in. -/
def tuple (steps : Nat) (s : Shape) : Shape :=
  ⟨s.encodable, steps + s.reading, max (steps + s.reading) (6 + s.search)⟩

/-- A tuple of the members of two. -/
def append (s t : Shape) : Shape :=
  ⟨s.encodable && t.encodable, max s.reading t.reading, max s.search t.search⟩

/-- So many steps are taken inside one another, and no more. -/
def stepLimit : Nat := 960

def isElementary (s : Shape) : Bool := s.encodable && s.search ≤ stepLimit

end Shape

mutual

/-- The type at the start of a text and what follows it. The number bounds the steps; twice the
length of the text is enough. -/
def item? : Nat → List Char → Option (Shape × List Char)
  | 0, _ => none
  | n + 1, cs => do
    let (s, r) ← match cs with
      | '(' :: r => members? 6 n r
      | _ => (plain? cs).map fun (t, r) => (Shape.plain t, r)
    let (count, rest) := dimensions n r
    some (s.array count, rest)

/-- The members of a tuple and what follows its end. The first of these is read the given number of
steps further in than the tuple, the others ten. -/
def members? (steps : Nat) : Nat → List Char → Option (Shape × List Char)
  | 0, _ => none
  | n + 1, cs =>
    match item? n cs with
    | some (s, ',' :: r) => (members? 10 n r).map fun (t, r) => ((s.tuple steps).append t, r)
    | some (s, ')' :: r) => some (s.tuple steps, r)
    | _ => none

end

end Elementary

/-- Elementary types. Inside an array or a tuple every expanded name may stand; on its own
`byte` may not. -/
def isElementary (name : String) : Bool :=
  name ≠ "byte" &&
    match Elementary.item? (2 * name.length + 2) name.toList with
    | some (s, []) => s.isElementary
    | _ => false

example : isElementary "uint256" = true ∧ isElementary "uint7" = false ∧
    isElementary "byte" = false ∧ isElementary "(byte,fixed8x1[2])[]" = true := by
  decide +kernel

end ContractInterface.TypedData
