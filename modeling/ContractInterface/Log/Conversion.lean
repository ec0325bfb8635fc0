import ContractInterface.Decimal.Significant
import ContractInterface.Text.Utf16

/-! Conversions, which write the value of a field with flags, a least width and a precision. The
flags are `-` for blanks behind the value, `0` for zeros in front of a number, `+` or a space for
the sign of one that is not negative, and `#` for the mark of its base or its point. -/
namespace ContractInterface.Log

/-- What a field holds. -/
inductive Value
  | text (s : Utf16)
  | number (n : Int)
  /-- A value that quotes and escapes do not change. -/
  | constant (s : String)
  /-- A value of which only the beginning is known. Quotes do not change it. -/
  | beginning (s : String)

namespace Value

def shown : Value → Utf16
  | .text s => s
  | .constant s | .beginning s => s
  | .number n => toString n

def quoted : Value → Utf16
  | .text s => s.quoted
  | v => v.shown

def asciiQuoted : Value → Utf16
  | .text s => Text.asciiEscaped s.quoted
  | .beginning s => Text.asciiEscaped s
  | v => v.shown

/-- Whether a precision cuts the text of the value where it is known. -/
def isKnownUpTo (precision : Option Nat) (text : Utf16) : Value → Bool
  | .beginning _ => precision.any (· ≤ text.points.length)
  | _ => true

end Value

/-- The notation that the letter of a conversion asks for. -/
inductive Form
  | shown
  | quoted
  | asciiQuoted
  | whole (base : Nat) (capital : Bool)
  | fixed
  | scientific (capital : Bool)
  | general (capital : Bool)
  | character

def Form.ofLetter? : Char → Option Form
  | 's' => some .shown
  | 'r' => some .quoted
  | 'a' => some .asciiQuoted
  | 'd' | 'i' | 'u' => some (.whole 10 false)
  | 'o' => some (.whole 8 false)
  | 'x' => some (.whole 16 false)
  | 'X' => some (.whole 16 true)
  | 'f' | 'F' => some .fixed
  | 'e' => some (.scientific false)
  | 'E' => some (.scientific true)
  | 'g' => some (.general false)
  | 'G' => some (.general true)
  | 'c' => some .character
  | _ => none

structure Conversion where
  flags : List Char
  width : Nat
  precision : Option Nat
  form : Form

namespace Conversion

/-- Blanks up to the width, behind the text or in front of it. -/
def pad (c : Conversion) (xs : List CodePoint) : List CodePoint :=
  let blanks := List.replicate (c.width - xs.length) (.char ' ')
  if c.flags.contains '-' then xs ++ blanks else blanks ++ xs

/-- A text up to the precision. -/
def text (c : Conversion) (s : Utf16) : List CodePoint :=
  c.pad (c.precision.elim s.points s.points.take)

/-- The text of a value up to the precision, as far as it is known. -/
def text? (c : Conversion) (v : Value) (s : Utf16) : Option (List CodePoint) :=
  if v.isKnownUpTo c.precision s then some (c.text s) else none

/-- A number from the mark of its base and its digits. Zeros stand between the two. -/
def number (c : Conversion) (negative : Bool) (mark digits : List Char) : List CodePoint :=
  let head := (if negative then ['-'] else if c.flags.contains '+' then ['+']
    else if c.flags.contains ' ' then [' '] else []) ++ mark
  let zeros := if c.flags.contains '0' && !c.flags.contains '-' then
    c.width - (head.length + digits.length) else 0
  c.pad ((head ++ List.replicate zeros '0' ++ digits).map .char)

/-- The mark of a base. The decimal one has none. -/
def baseMark : Nat → List Char
  | 8 => ['0', 'o']
  | 16 => ['0', 'x']
  | _ => []

/-- A whole number with at least as many digits as the precision says. -/
def whole (c : Conversion) (base : Nat) (capital : Bool) (n : Int) : List CodePoint :=
  let spell (cs : List Char) := if capital then cs.map Char.toUpper else cs
  let ds := Nat.toDigits base n.natAbs
  c.number (n < 0) (if c.flags.contains '#' then spell (baseMark base) else [])
    (List.replicate (c.precision.getD 0 - ds.length) '0' ++ spell ds)

/-- A number by a notation of floating point, which takes whether to keep the point, the
precision and the nearest double. Six is the precision where none is given. -/
def floating (c : Conversion) (capital : Bool) (layout : Bool → Nat → Nat → List Char) (n : Int) :
    Option (List CodePoint) := do
  let digits := layout (c.flags.contains '#') (c.precision.getD 6)
    (← Decimal.nearestDouble? n.natAbs)
  some (c.number (n < 0) [] (if capital then digits.map Char.toUpper else digits))

/-- The character of a code point, or a text of one character as it is. -/
def character? : Value → Option CodePoint
  | .number n =>
    if 0 ≤ n && Nat.isValidChar n.toNat then some (.char (Char.ofNat n.toNat)) else none
  | .text s =>
    match s.points with
    | [x] => some x
    | _ => none
  | .constant _ | .beginning _ => none

/-- A value in the form asked for, if it has one. -/
def convert? (c : Conversion) (v : Value) : Option (List CodePoint) :=
  match c.form, v with
  | .shown, v => c.text? v v.shown
  | .quoted, v => c.text? v v.quoted
  | .asciiQuoted, v => c.text? v v.asciiQuoted
  | .character, v => (character? v).map fun x => c.pad [x]
  | .whole base capital, .number n => some (c.whole base capital n)
  | .fixed, .number n => c.floating false Decimal.fixed n
  | .scientific capital, .number n => c.floating capital Decimal.scientific n
  | .general capital, .number n => c.floating capital Decimal.general n
  | _, _ => none

example : convert? ⟨['0', '+'], 6, none, .whole 10 false⟩ (.number 40) =
    some ("+00040".toList.map .char) := by decide +kernel

example : convert? ⟨['#'], 7, some 3, .whole 16 true⟩ (.number (-40)) =
    some (" -0X028".toList.map .char) := by decide +kernel

example : convert? ⟨['-', '0'], 5, some 2, .shown⟩ (.text "text") =
    some ("te   ".toList.map .char) := by decide +kernel

example : convert? ⟨[], 3, some 2, .shown⟩ (.beginning "text") =
      some (" te".toList.map .char) ∧
    convert? ⟨[], 3, none, .shown⟩ (.beginning "text") = none := by decide +kernel

end Conversion

end ContractInterface.Log
