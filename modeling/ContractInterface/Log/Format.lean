import ContractInterface.Log.Conversion
import ContractInterface.Log.Record
import ContractInterface.Text.Alphanumeric
import ContractInterface.Text.Numeral

/-! Formats of log lines: text with fields such as `%(levelname)-8.3s`. A field is a key in
parentheses with a conversion, which is flags, a width, a precision and a letter; `%%` is a
percent sign. A conversion without a key takes the listing of the whole record. A format is
checked by a grammar of its own when it is set up: it allows some fields that no line can be
written with. -/
namespace ContractInterface.Log

namespace Format

def isFlag (c : Char) : Bool := c = '#' || c = '0' || c = '+' || c = ' ' || c = '-'

/-- The letters of conversions in either case. The dotted and the dotless i and the long s are
case variants too. -/
def isLetter (c : Char) : Bool :=
  ['d', 'i', 'o', 'u', 'x', 'e', 'f', 'g', 'c', 'r', 's', 'a', '%', 'İ', 'ı', 'ſ'].contains
    c.toLower

/-- The text behind a star or behind digits of any script, or the whole text. -/
def skipCount (cs : List Char) : List Char :=
  match cs with
  | '*' :: r => r
  | _ => cs.dropWhile fun c => (Text.digitValue? c).isSome

/-- The text behind a point and what counts places, or the whole text if nothing counts them. -/
def skipPrecision (cs : List Char) : List Char :=
  match cs with
  | '.' :: r => if (skipCount r).length < r.length then skipCount r else cs
  | _ => cs

/-- Whether a key and a conversion stand at the start of a text, by the grammar that formats are
checked with. -/
def startsField : List Char → Bool
  | '(' :: r =>
    match r.takeWhile Text.isWordChar, r.dropWhile Text.isWordChar with
    | _ :: _, ')' :: r => (skipPrecision (skipCount (r.dropWhile isFlag))).head?.any isLetter
    | _, _ => false
  | _ => false

/-- A format shows at least one field. -/
def isValid : List Char → Bool
  | [] => false
  | c :: r => (c = '%' && startsField r) || isValid r

/-- Wider fields and finer precisions than this are not written. -/
def sizeLimit : Nat := 2147483647

/-- The conversion at the start of a text and what follows it. One of the letters `h`, `l` and
`L` may stand in front of its letter and means nothing. -/
def conversion? (cs : List Char) : Option (Conversion × List Char) :=
  let flags := cs.takeWhile isFlag
  let r := cs.dropWhile isFlag
  let width := Text.asciiNumber (r.takeWhile Char.isDigit)
  let (precision, r) := match r.dropWhile Char.isDigit with
    | '.' :: r => (some (Text.asciiNumber (r.takeWhile Char.isDigit)), r.dropWhile Char.isDigit)
    | r => (none, r)
  let r := match r with
    | 'h' :: r | 'l' :: r | 'L' :: r => r
    | _ => r
  match r with
  | [] => none
  | letter :: r =>
    if sizeLimit < max width (precision.getD 0) then none
    else (Form.ofLetter? letter).map fun form => (⟨flags, width, precision, form⟩, r)

/-- The value of a field of a record that is written at the given time. Of where and when exactly
the record was made, the record does not tell. -/
def value? (time : String) (r : Record) : String → Option Value
  | "asctime" => some (.text time)
  | "levelname" => some (.text (levelName r.level))
  | "levelno" => some (.number r.level)
  | "message" | "msg" => some (.text r.message)
  | "module" => some (.text r.part)
  | "funcName" => some (.text r.operation)
  | "name" => some (.text "root")
  | "threadName" => some (.text "MainThread")
  | "processName" => some (.text "MainProcess")
  | "args" => some (.constant "()")
  | "exc_info" | "exc_text" | "stack_info" => some (.constant "None")
  | "pathname" | "filename" | "lineno" | "created" | "msecs" | "relativeCreated" | "thread"
  | "process" => some (.beginning "")
  | _ => none

/-- The fields of a record with their keys, up to the path of where it was made. -/
def listing (r : Record) : Value :=
  .beginning (s!"\x7b'name': 'root', 'msg': {r.message.quoted}, 'args': (), 'levelname': " ++
    s!"{Text.quoted (levelName r.level)}, 'levelno': {r.level}, 'pathname': '")

/-- The value for a conversion, and the text of the conversion. With a key it is a field of the
record, else what is still to be shown. -/
def operand? (time : String) (r : Record) (pending : Option Value) (cs : List Char) :
    Option (Value × List Char) :=
  match cs with
  | '(' :: cs => (value? time r (String.ofList (cs.takeWhile (· ≠ ')')))).map
      (·, (cs.dropWhile (· ≠ ')')).drop 1)
  | cs => pending.map (·, cs)

/-- The line of a record, or nothing if the format asks for what the record does not have or
cannot show in that form. Nothing is left to be shown without a key behind the first conversion.
The number bounds the steps; the length of the format is enough. -/
def render (time : String) (r : Record) :
    Nat → Option Value → List Char → Option (List CodePoint)
  | _, _, [] => some []
  | 0, _, _ => none
  | n + 1, pending, '%' :: '%' :: cs => (render time r n pending cs).map (.char '%' :: ·)
  | n + 1, pending, '%' :: cs => do
    let (v, cs) ← operand? time r pending cs
    let (c, rest) ← conversion? cs
    let shown ← c.convert? v
    let line ← render time r n none rest
    some (shown ++ line)
  | n + 1, pending, c :: cs => (render time r n pending cs).map (.char c :: ·)

end Format

/-- The format used where none is given. -/
def defaultFormat : String :=
  "%(asctime)s: %(levelname)s: %(module)s::%(funcName)s: %(message)s"

/-- The format of lines to standard error. -/
def plainFormat : String := "%(levelname)s:%(name)s:%(message)s"

/-- How times are written. -/
def timeFormat : String := "%y-%m-%d %H:%M:%S"

/-- The line of a record. One that shows half of a surrogate pair cannot be written. -/
def line? (format time : String) (r : Record) : Option String := do
  let xs ← Format.render time r format.length (some (Format.listing r)) format.toList
  (xs.mapM CodePoint.char?).map String.ofList

end ContractInterface.Log
