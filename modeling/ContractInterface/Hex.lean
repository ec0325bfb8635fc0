import ContractInterface.Json.Reader
import ContractInterface.Text.Quoted

/-! Bytes as hexadecimal text, two digits to a byte. -/
namespace ContractInterface.Hex

def byteDigits (b : UInt8) : List Char := Text.hexDigits 2 b.toNat

/-- Lower-case digits behind the marker `0x`. -/
def encode (bytes : List UInt8) : String :=
  String.ofList ('0' :: 'x' :: bytes.flatMap byteDigits)

/-- The blanks that may stand between bytes. -/
def isBlank (c : Char) : Bool := c = ' ' || (0x9 ≤ c.toNat && c.toNat ≤ 0xD)

/-- Read pairs of digits in either case. Blanks may stand between pairs, not inside one. -/
def decode? : List Char → Option (List UInt8)
  | [] => some []
  | [c] => if isBlank c then some [] else none
  | c :: d :: r =>
    if isBlank c then decode? (d :: r)
    else do
      let high ← Json.Reader.hexValue? c
      let low ← Json.Reader.hexValue? d
      let bytes ← decode? r
      some (UInt8.ofNat (16 * high + low) :: bytes)

/-- A text without one leading marker `0x`. -/
def dropMarker : List Char → List Char
  | '0' :: 'x' :: r => r
  | cs => cs

end ContractInterface.Hex
