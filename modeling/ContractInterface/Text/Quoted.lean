import ContractInterface.Text.Unprintable

/-! Quoted text, the form in which messages show what they were given. -/
namespace ContractInterface.Text

/-- The lower-case digits of `n` in base 16, padded with zeros to the given width. -/
def hexDigits (width n : Nat) : List Char :=
  let ds := Nat.toDigits 16 n
  List.replicate (width - ds.length) '0' ++ ds

/-- The escape of a character by its code point, with two, four or eight digits. -/
def codeEscape (c : Char) : List Char :=
  if c.toNat < 0x100 then '\\' :: 'x' :: hexDigits 2 c.toNat
  else if c.toNat < 0x10000 then '\\' :: 'u' :: hexDigits 4 c.toNat
  else '\\' :: 'U' :: hexDigits 8 c.toNat

/-- A character inside quotes. The quote in use and the backslash get a backslash; line feed,
carriage return and tab have short escapes; other unprintable characters are written by code
point. -/
def quotedChar (quote c : Char) : List Char :=
  if c = quote || c = '\\' then ['\\', c]
  else if c = '\n' then ['\\', 'n']
  else if c = '\r' then ['\\', 'r']
  else if c = '\t' then ['\\', 't']
  else if isPrintable c then [c]
  else codeEscape c

/-- Single quotes are used unless the text has a single quote and no double quote. -/
def quoteFor (cs : List Char) : Char :=
  if cs.contains '\'' && !cs.contains '"' then '"' else '\''

def quoted (s : String) : String :=
  let quote := quoteFor s.toList
  String.ofList (quote :: s.toList.flatMap (quotedChar quote) ++ [quote])

/-- Text in ASCII. Every other character is written by code point. -/
def asciiEscaped (s : String) : String :=
  String.ofList (s.toList.flatMap fun c => if c.toNat < 0x80 then [c] else codeEscape c)

example : quoted "it's" = "\"it's\"" ∧ quoted "a\n\u200b" = "'a\\n\\u200b'" := by
  decide +kernel

example : asciiEscaped (quoted "é\n😀") = "'\\xe9\\n\\U0001f600'" := by decide +kernel

end ContractInterface.Text
