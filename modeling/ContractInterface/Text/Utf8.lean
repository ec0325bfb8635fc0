import ContractInterface.Text.Quoted

/-! Texts as bytes. A character takes one to four bytes, of which the first tells how many follow.
Bytes need not be a text, and then a fault tells which of them are no character and why. -/
namespace ContractInterface.Utf8

def encode (s : String) : List UInt8 := s.toList.flatMap String.utf8EncodeChar

inductive Flaw
  | badStart
  | badContinuation
  | cutShort
  deriving DecidableEq

def Flaw.reason : Flaw → String
  | badStart => "invalid start byte"
  | badContinuation => "invalid continuation byte"
  | cutShort => "unexpected end of data"

/-- The first bytes that are no character, and how many stand in front of them. -/
structure Fault where
  flaw : Flaw
  place : Nat
  bytes : List UInt8
  deriving DecidableEq

def Fault.message (f : Fault) : String :=
  let what := match f.bytes with
    | [b] => s!"byte 0x{String.ofList (Text.hexDigits 2 b.toNat)} in position {f.place}"
    | bs => s!"bytes in position {f.place}-{f.place + bs.length - 1}"
  s!"'utf-8' codec can't decode {what}: {f.flaw.reason}"

/-- What a first byte tells: how many bytes follow it, its part of the character's number, and the
least and the greatest byte that may come next. -/
structure Lead where
  following : Nat
  value : Nat
  least : Nat := 0x80
  greatest : Nat := 0xBF

/-- No character has two spellings, none is half of a surrogate pair, and none is above U+10FFFF. -/
def lead? (b : Nat) : Option Lead :=
  if b < 0x80 then some { following := 0, value := b }
  else if b < 0xC2 then none
  else if b < 0xE0 then some { following := 1, value := b - 0xC0 }
  else if b < 0xF0 then
    some {
      following := 2, value := b - 0xE0
      least := if b = 0xE0 then 0xA0 else 0x80, greatest := if b = 0xED then 0x9F else 0xBF }
  else if b < 0xF5 then
    some {
      following := 3, value := b - 0xF0
      least := if b = 0xF0 then 0x90 else 0x80, greatest := if b = 0xF4 then 0x8F else 0xBF }
  else none

/-- The number of a character, of which some bytes are still to come, and what follows them. If
there is none, what follows the bytes that could belong to it. -/
def finish : Nat → Lead → List UInt8 → Except (Flaw × List UInt8) (Nat × List UInt8)
  | 0, lead, bs => .ok (lead.value, bs)
  | _ + 1, _, [] => .error (.cutShort, [])
  | n + 1, lead, b :: bs =>
    if lead.least ≤ b.toNat ∧ b.toNat ≤ lead.greatest then
      finish n { following := n, value := lead.value * 0x40 + (b.toNat - 0x80) } bs
    else .error (.badContinuation, b :: bs)

/-- A part of some bytes: a character, or bytes that are none. -/
inductive Piece
  | char (c : Char)
  | flawed (flaw : Flaw) (bytes : List UInt8)

/-- The first piece of some bytes and what follows it. -/
def piece (b : UInt8) (bs : List UInt8) : Piece × List UInt8 :=
  match lead? b.toNat with
  | none => (.flawed .badStart [b], bs)
  | some lead =>
    match finish lead.following lead bs with
    | .ok (value, rest) => (.char (Char.ofNat value), rest)
    | .error (flaw, rest) => (.flawed flaw (b :: bs.take (bs.length - rest.length)), rest)

/-- All pieces. The number bounds them; that of the bytes is enough. -/
def pieces : Nat → List UInt8 → List Piece
  | n + 1, b :: bs =>
    let (p, rest) := piece b bs
    p :: pieces n rest
  | _, _ => []

/-- The characters of pieces in front of which stand some bytes. -/
def chars : Nat → List Piece → Except Fault (List Char)
  | _, [] => .ok []
  | place, .char c :: ps => (chars (place + c.utf8Size) ps).map (c :: ·)
  | place, .flawed flaw bytes :: _ => .error ⟨flaw, place, bytes⟩

def decode (bs : List UInt8) : Except Fault String :=
  (chars 0 (pieces bs.length bs)).map String.ofList

/-- Bytes as a text in which U+FFFD stands for what is no character. -/
def replaced (bs : List UInt8) : String :=
  String.ofList ((pieces bs.length bs).map fun
    | .char c => c
    | .flawed _ _ => '\uFFFD')

example : decode [0x61, 0xE2, 0x82, 0xAC] = .ok "a€" := by rfl

example : (decode [0x61, 0xE2, 0x82]).mapError Fault.message =
    .error "'utf-8' codec can't decode bytes in position 1-2: unexpected end of data" := by
  rfl

end ContractInterface.Utf8
