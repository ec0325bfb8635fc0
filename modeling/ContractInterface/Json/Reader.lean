import ContractInterface.Json.Value
import ContractInterface.Text.Numeral

/-! The reading of JSON text. Beyond the standard, `NaN`, `Infinity` and `-Infinity` are read,
a number out of range becomes an infinity, and of a repeated key the last value stands at the
first place. Only the four JSON blanks separate tokens, and raw controls in texts are refused. -/
namespace ContractInterface.Json

/-- What is wrong with a JSON text at some place. -/
inductive Flaw
  | valueExpected
  | keyExpected
  | colonExpected
  | commaExpected
  | unterminatedString
  | controlCharacter
  | badEscape
  | badUnicodeEscape
  | extraText
  | byteOrderMark
  deriving DecidableEq

def Flaw.message : Flaw → String
  | valueExpected => "Expecting value"
  | keyExpected => "Expecting property name enclosed in double quotes"
  | colonExpected => "Expecting ':' delimiter"
  | commaExpected => "Expecting ',' delimiter"
  | unterminatedString => "Unterminated string starting at"
  | controlCharacter => "Invalid control character at"
  | badEscape => "Invalid \\escape"
  | badUnicodeEscape => "Invalid \\uXXXX escape"
  | extraText => "Extra data"
  | byteOrderMark => "Unexpected UTF-8 BOM (decode using utf-8-sig)"

/-- What a value of several members stands in. -/
inductive Bracket
  | array
  | object
  deriving DecidableEq

def Bracket.name : Bracket → String
  | array => "array"
  | object => "object"

def Bracket.ofChar? : Char → Option Bracket
  | '[' => some array
  | '\x7b' => some object
  | _ => none

/-- Why a text was not read: a flaw with its place, an integer of too many digits, or a value that
lies too deep. -/
inductive Fault
  | flaw (flaw : Flaw) (line column position : Nat)
  | digitLimit (digits : Nat)
  | tooDeep (bracket : Bracket)
  deriving DecidableEq

namespace Reader

/-- A refusal while reading, placed by the number of characters left. -/
inductive Refusal
  | flaw (flaw : Flaw) (left : Nat)
  | digitLimit (digits : Nat)

def refuse {α : Type} (flaw : Flaw) (rest : List Char) : Except Refusal α :=
  .error (.flaw flaw rest.length)

def isBlank (c : Char) : Bool := c = ' ' || c = '\t' || c = '\n' || c = '\r'

def skip (cs : List Char) : List Char := cs.dropWhile isBlank

def hexValue? (c : Char) : Option Nat :=
  if '0' ≤ c && c ≤ '9' then some (c.toNat - '0'.toNat)
  else if 'a' ≤ c && c ≤ 'f' then some (c.toNat - 'a'.toNat + 10)
  else if 'A' ≤ c && c ≤ 'F' then some (c.toNat - 'A'.toNat + 10)
  else none

def hexNumber? (cs : List Char) : Option Nat :=
  cs.foldlM (fun n c => (hexValue? c).map (16 * n + ·)) 0

/-- The character of a one-letter escape. -/
def shortEscape? : Char → Option Char
  | '"' => some '"'
  | '\\' => some '\\'
  | '/' => some '/'
  | 'b' => some '\x08'
  | 'f' => some '\x0c'
  | 'n' => some '\n'
  | 'r' => some '\r'
  | 't' => some '\t'
  | _ => none

/-- The units of a text up to its closing quote, for a text whose opening quote had `start`
characters from it on. An escape by number gives one unit, which may be half of a pair. -/
def stringUnits (start : Nat) : List Char → Except Refusal (List UInt16 × List Char)
  | [] => .error (.flaw .unterminatedString start)
  | '"' :: r => .ok ([], r)
  | '\\' :: 'u' :: a :: b :: c :: d :: e :: r =>
    match hexNumber? [a, b, c, d] with
    | none => refuse .badUnicodeEscape ('u' :: a :: b :: c :: d :: e :: r)
    | some u => (stringUnits start (e :: r)).map fun (us, rest) => (.ofNat u :: us, rest)
  | '\\' :: 'u' :: r => refuse .badUnicodeEscape ('u' :: r)
  | ['\\'] => .error (.flaw .unterminatedString start)
  | '\\' :: e :: r =>
    match shortEscape? e with
    | none => refuse .badEscape ('\\' :: e :: r)
    | some c => (stringUnits start r).map fun (us, rest) => (Utf16.ofChar c ++ us, rest)
  | c :: r =>
    if c.toNat < 0x20 then refuse .controlCharacter (c :: r)
    else (stringUnits start r).map fun (us, rest) => (Utf16.ofChar c ++ us, rest)

/-- A text from behind its opening quote. -/
def string (cs : List Char) : Except Refusal (Utf16 × List Char) :=
  (stringUnits (cs.length + 1) cs).map fun (us, rest) => (⟨us⟩, rest)

/-- The digits of a fraction behind its point, if there is one. -/
def fraction : List Char → List Char × List Char
  | '.' :: c :: r =>
    if c.isDigit then (c :: r.takeWhile Char.isDigit, r.dropWhile Char.isDigit)
    else ([], '.' :: c :: r)
  | cs => ([], cs)

/-- A power of ten with its sign, if there is one. -/
def power (cs : List Char) : Option Int × List Char :=
  match cs with
  | e :: r =>
    if e = 'e' || e = 'E' then
      let (negative, ds) := match r with
        | '-' :: r => (true, r)
        | '+' :: r => (false, r)
        | r => (false, r)
      if (ds.takeWhile Char.isDigit).isEmpty then (none, cs)
      else
        let n : Int := Text.asciiNumber (ds.takeWhile Char.isDigit)
        (some (if negative then -n else n), ds.dropWhile Char.isDigit)
    else (none, cs)
  | [] => (none, [])

/-- A number behind its sign. A zero is never followed by further digits. -/
def unsigned (negative : Bool) (cs : List Char) : Option (Except Refusal (Json × List Char)) :=
  let digits := cs.takeWhile Char.isDigit
  let digits := if digits.head? = some '0' then ['0'] else digits
  if digits.isEmpty then none
  else
    let (decimals, rest) := fraction (cs.drop digits.length)
    let (exponent, rest) := power rest
    some <|
      if decimals.isEmpty && exponent.isNone then
        if Text.digitLimit < digits.length then .error (.digitLimit digits.length)
        else
          let n : Int := Text.asciiNumber digits
          .ok (.int (if negative then -n else n), rest)
      else
        .ok (.float (.ofDecimal negative (Text.asciiNumber (digits ++ decimals))
          (exponent.getD 0 - decimals.length)), rest)

/-- A number or one of the three words for a double without digits. -/
def number (cs : List Char) : Except Refusal (Json × List Char) :=
  match cs with
  | '-' :: 'I' :: 'n' :: 'f' :: 'i' :: 'n' :: 'i' :: 't' :: 'y' :: r =>
    .ok (.float (.infinite true), r)
  | 'I' :: 'n' :: 'f' :: 'i' :: 'n' :: 'i' :: 't' :: 'y' :: r => .ok (.float (.infinite false), r)
  | 'N' :: 'a' :: 'N' :: r => .ok (.float .nan, r)
  | '-' :: r => (unsigned true r).getD (refuse .valueExpected cs)
  | r => (unsigned false r).getD (refuse .valueExpected cs)

mutual

/-- A value at the very start of a text. The first argument bounds the steps. A bracket takes two
of them, so twice the number of characters and two more are enough. -/
def value : Nat → List Char → Except Refusal (Json × List Char)
  | 0, cs => refuse .valueExpected cs
  | n + 1, cs =>
    match cs with
    | 'n' :: 'u' :: 'l' :: 'l' :: r => .ok (.null, r)
    | 't' :: 'r' :: 'u' :: 'e' :: r => .ok (.bool true, r)
    | 'f' :: 'a' :: 'l' :: 's' :: 'e' :: r => .ok (.bool false, r)
    | '"' :: r => (string r).map fun (s, rest) => (.string s, rest)
    | '[' :: r =>
      match skip r with
      | ']' :: r => .ok (.array [], r)
      | r => (items n r).map fun (xs, rest) => (.array xs, rest)
    | '\x7b' :: r =>
      match skip r with
      | '\x7d' :: r => .ok (.object [], r)
      | r => (fields n [] r).map fun (fs, rest) => (.object fs, rest)
    | r => number r

/-- The items of a list that has at least one, up to its closing bracket. -/
def items : Nat → List Char → Except Refusal (List Json × List Char)
  | 0, cs => refuse .valueExpected cs
  | n + 1, cs => do
    let (x, rest) ← value n cs
    match skip rest with
    | ']' :: r => .ok ([x], r)
    | ',' :: r =>
      let (xs, rest) ← items n (skip r)
      .ok (x :: xs, rest)
    | r => refuse .commaExpected r

/-- The fields of an object that has at least one, up to its closing brace. -/
def fields : Nat → List (Utf16 × Json) → List Char →
    Except Refusal (List (Utf16 × Json) × List Char)
  | 0, _, cs => refuse .keyExpected cs
  | n + 1, before, cs =>
    match cs with
    | '"' :: r => do
      let (key, rest) ← string r
      match skip rest with
      | ':' :: r =>
        let (x, rest) ← value n (skip r)
        let known := setField before key x
        match skip rest with
        | '\x7d' :: r => .ok (known, r)
        | ',' :: r => fields n known (skip r)
        | r => refuse .commaExpected r
      | r => refuse .colonExpected r
    | r => refuse .keyExpected r

end

/-- The one value of a whole text, with blanks around it. -/
def whole (cs : List Char) : Except Refusal Json :=
  if cs.head? = some '\uFEFF' then refuse .byteOrderMark cs
  else
    match value (2 * cs.length + 2) (skip cs) with
    | .error e => .error e
    | .ok (x, rest) => if (skip rest).isEmpty then .ok x else refuse .extraText (skip rest)

/-- The fault of a refusal, placed by line and column. Lines end at line feeds alone. -/
def Refusal.fault (cs : List Char) : Refusal → Fault
  | .digitLimit n => .digitLimit n
  | .flaw f left =>
    let before := cs.take (cs.length - left)
    .flaw f (before.count '\n' + 1) ((before.reverse.takeWhile (· ≠ '\n')).length + 1)
      before.length

end Reader

/-- Read a JSON text. -/
def parse (s : String) : Except Fault Json :=
  (Reader.whole s.toList).mapError (Reader.Refusal.fault s.toList)

end ContractInterface.Json
