import ContractInterface.Json.Value
import ContractInterface.Decimal.Shortest

/-! JSON text. It is pure ASCII: all else is escaped unit by unit. A value is written on one line,
or over several lines with a given indentation; either way an empty list or object stays on one
line and fields keep their order. -/
namespace ContractInterface.Json

/-- A unit inside quotes. Printable ASCII stands for itself but for the quote and the backslash;
some controls have short escapes, and all else is escaped by number. -/
def escapedUnit (u : UInt16) : List Char :=
  let c := Char.ofNat u.toNat
  if c = '"' then ['\\', '"']
  else if c = '\\' then ['\\', '\\']
  else if c = '\n' then ['\\', 'n']
  else if c = '\r' then ['\\', 'r']
  else if c = '\t' then ['\\', 't']
  else if c = '\x08' then ['\\', 'b']
  else if c = '\x0c' then ['\\', 'f']
  else if 0x20 ≤ u.toNat && u.toNat < 0x7F then [c]
  else '\\' :: 'u' :: Text.hexDigits 4 u.toNat

def escaped (t : Utf16) : String :=
  String.ofList ('"' :: t.units.flatMap escapedUnit ++ ['"'])

/-- How the members of a list or object are set apart: by a comma and a blank on one line, or
each on a line of its own, `width` columns further in than its parent. -/
inductive Layout
  | line
  | block (width : Nat)

namespace Layout

/-- A line break and the indentation of the given depth, nothing on one line. -/
def lineBreak (layout : Layout) (depth : Nat) : String :=
  match layout with
  | line => ""
  | block width => String.ofList ('\n' :: List.replicate (width * depth) ' ')

def separator (layout : Layout) (depth : Nat) : String :=
  match layout with
  | line => ", "
  | block _ => "," ++ layout.lineBreak depth

/-- Members between brackets, at the given depth of the enclosing value. -/
def enclose (layout : Layout) (depth : Nat) (opening closing : String) (members : List String) :
    String :=
  if members.isEmpty then opening ++ closing
  else opening ++ layout.lineBreak (depth + 1) ++
    (layout.separator (depth + 1)).intercalate members ++ layout.lineBreak depth ++ closing

end Layout

def write (layout : Layout) (depth : Nat) : Json → String
  | null => "null"
  | bool true => "true"
  | bool false => "false"
  | int n => toString n
  | float x => x.text ⟨"NaN", "Infinity"⟩
  | string t => escaped t
  | array items => layout.enclose depth "[" "]" (writeItems layout (depth + 1) items)
  | object fields => layout.enclose depth "\x7b" "\x7d" (writeFields layout (depth + 1) fields)
where
  writeItems (layout : Layout) (depth : Nat) : List Json → List String
    | [] => []
    | x :: xs => write layout depth x :: writeItems layout depth xs
  writeFields (layout : Layout) (depth : Nat) : List (Utf16 × Json) → List String
    | [] => []
    | (key, x) :: fs =>
      (escaped key ++ ": " ++ write layout depth x) :: writeFields layout depth fs

/-- The text of a value on one line. -/
def compact (x : Json) : String := x.write .line 0

/-- The text of a value over several lines, two columns to a level. -/
def indented (x : Json) : String := x.write (.block 2) 0

example : compact (object [("a", array [int 1, null]), ("é", object [])]) =
    "\x7b\"a\": [1, null], \"\\u00e9\": \x7b\x7d\x7d" := by decide +kernel

end ContractInterface.Json
