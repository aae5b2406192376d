import MessageFormat.Text.Printable

/-!
# String literals

A string is shown between single quotes, or between double quotes if it holds a single quote and
no double quote. The enclosing quote, the backslash, line breaks and tabs are escaped by a
backslash, and every other character that is not printable by its code point in hexadecimal.
-/

namespace MessageFormat

/-- The hexadecimal digits of a number, padded with zeros to a width. -/
def hexDigits (width n : Nat) : String :=
  let digits := Nat.toDigits 16 n
  String.ofList (List.replicate (width - digits.length) '0' ++ digits)

/-- A character inside a literal that is enclosed in `quote`. -/
def literalChar (quote c : Char) : String :=
  if c = quote || c = '\\' then
    String.ofList ['\\', c]
  else if c = '\n' then
    "\\n"
  else if c = '\r' then
    "\\r"
  else if c = '\t' then
    "\\t"
  else if isPrintable c then
    c.toString
  else if c.toNat < 0x100 then
    "\\x" ++ hexDigits 2 c.toNat
  else if c.toNat < 0x10000 then
    "\\u" ++ hexDigits 4 c.toNat
  else
    "\\U" ++ hexDigits 8 c.toNat

/-- The quote that encloses a literal. -/
def literalQuote (chars : List Char) : Char :=
  if chars.contains '\'' && !chars.contains '"' then '"' else '\''

/-- A string as a literal. -/
def stringLiteral (s : String) : String :=
  let quote := literalQuote s.toList
  quote.toString ++ String.join (s.toList.map (literalChar quote)) ++ quote.toString

/-- A byte inside a literal that is enclosed in `quote`. -/
def literalByte (quote : Char) (b : UInt8) : String :=
  let c := Char.ofNat b.toNat
  if c = quote || c = '\\' then
    String.ofList ['\\', c]
  else if c = '\n' then
    "\\n"
  else if c = '\r' then
    "\\r"
  else if c = '\t' then
    "\\t"
  else if 0x20 ≤ b && b < 0x7f then
    c.toString
  else
    "\\x" ++ hexDigits 2 b.toNat

/-- A byte string as a literal. -/
def bytesLiteral (bs : List UInt8) : String :=
  let quote := literalQuote (bs.map fun b => Char.ofNat b.toNat)
  "b" ++ quote.toString ++ String.join (bs.map (literalByte quote)) ++ quote.toString

end MessageFormat
