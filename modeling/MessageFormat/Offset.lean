import MessageFormat.Dialect
import MessageFormat.Text.Blank
import MessageFormat.Text.Seam

/-!
# Offset clauses

A placeholder of a numeric type may give an offset before its sub-messages: the offset keyword of
the dialect, blanks, an optional sign and decimal digits. Numbers longer than `maxDigits` digits
are refused in both directions.

If the digits reach across the seam of a text that is read from a negative position, the number is
what lies between its two ends by their positions, which need not be a number at all.
-/

namespace MessageFormat

/-- The largest number of digits of a number in a message. -/
def maxDigits : Nat :=
  4300

/-- The least number that has more than so many digits. -/
def leastOver (digits : Nat) : Nat :=
  Nat.pow 10 digits

/-- The wording for a number that has too many digits to be written or shown. -/
def overlongMessage : String :=
  s!"Exceeds the limit ({maxDigits} digits) for integer string conversion; " ++
    "use sys.set_int_max_str_digits() to increase the limit"

/-- The decimal digits of a number, after a minus sign if it is negative. -/
def decimal (n : Int) : String :=
  if n < 0 then
    "-" ++ Nat.repr n.natAbs
  else
    Nat.repr n.natAbs

/-- A number as it is written: its sign and its digits. -/
structure Numeral where
  negative : Bool
  digits : List Char
deriving DecidableEq, Repr

namespace Numeral

/-- Reads an optional sign and all digits that follow, and gives what is left. -/
def read : List Char → Numeral × List Char
  | '-' :: rest => (⟨true, rest.takeWhile Char.isDigit⟩, rest.dropWhile Char.isDigit)
  | '+' :: rest => (⟨false, rest.takeWhile Char.isDigit⟩, rest.dropWhile Char.isDigit)
  | rest => (⟨false, rest.takeWhile Char.isDigit⟩, rest.dropWhile Char.isDigit)

/-- The number that is written. -/
def value (n : Numeral) : Int :=
  if n.negative then
    -(Nat.ofDigitChars 10 n.digits 0 : Int)
  else
    Nat.ofDigitChars 10 n.digits 0

/-- A number that does not start with a sign has none. -/
theorem read_unsigned
    {c : Char} {rest : List Char} (hminus : c ≠ '-') (hplus : c ≠ '+') :
    read (c :: rest) =
      (⟨false, (c :: rest).takeWhile Char.isDigit⟩, (c :: rest).dropWhile Char.isDigit) := by
  unfold read
  split
  · next heq => exact absurd (List.cons.inj heq).1 hminus
  · next heq => exact absurd (List.cons.inj heq).1 hplus
  · rfl

/-- Reading a number leaves the end of the text. -/
theorem read_suffix
    (text : List Char) :
    (read text).2 <:+ text := by
  unfold read
  split
  · exact (List.dropWhile_suffix Char.isDigit).trans (List.suffix_cons _ _)
  · exact (List.dropWhile_suffix Char.isDigit).trans (List.suffix_cons _ _)
  · exact List.dropWhile_suffix Char.isDigit

end Numeral

/-- What stands where an offset clause may stand; `left` is what follows it. -/
inductive OffsetClause where
  /-- The keyword is not there. -/
  | absent
  /-- The keyword is there but no digit follows; `left` starts where the number should. -/
  | unnumbered (left : List Char)
  /-- The digits reach across the seam, and what the positions leave of them is no number. -/
  | unreadable (text : String) (left : List Char)
  /-- The number has too many digits. -/
  | overlong (digits : Nat) (left : List Char)
  | offset (value : Int) (left : List Char)
deriving DecidableEq, Repr

namespace Dialect

/-- What a number stands for, of which `text` is what was written. -/
def numberClause (text : List Char) (numeral : Numeral) (left : List Char) : OffsetClause :=
  if numeral.digits.isEmpty then
    .unreadable (String.ofList text) left
  else if numeral.digits.length > maxDigits then
    .overlong numeral.digits.length left
  else
    .offset numeral.value left

/-- Reads the blanks and the number after the keyword. -/
def readNumber (rest : List Char) (seam : Seam := none) : OffsetClause :=
  let start := skipBlanks rest
  let (numeral, left) := Numeral.read start
  if numeral.digits.isEmpty then
    .unnumbered start
  else
    match seam.across? start left with
    | none => numberClause start numeral left
    | some text => numberClause text (Numeral.read text).1 left

/-- Reads the offset clause at the start of a text. -/
def readOffset (d : Dialect) (text : List Char) (seam : Seam := none) : OffsetClause :=
  if d.offsetKeyword.toList.isPrefixOf (seam.near text) then
    readNumber (text.drop d.offsetKeyword.toList.length) seam
  else
    .absent

/-- Writes an offset clause. -/
def spellOffset (d : Dialect) (n : Int) : String :=
  d.offsetKeyword ++ decimal n

theorem numberClause_left
    {text left rest : List Char} {numeral : Numeral} {n : Int}
    (h : numberClause text numeral left = .offset n rest) :
    rest = left := by
  unfold numberClause at h
  split at h
  · cases h
  · split at h <;> cases h
    rfl

theorem readNumber_suffix
    {rest left : List Char} {seam : Seam} {n : Int}
    (h : readNumber rest seam = .offset n left) :
    left <:+ rest := by
  have hread :=
    (Numeral.read_suffix (skipBlanks rest)).trans (skipBlanks_suffix rest)
  simp only [readNumber] at h
  split at h
  · cases h
  · split at h <;>
      · rw [numberClause_left h]
        exact hread

theorem readOffset_suffix
    {d : Dialect} {text left : List Char} {seam : Seam} {n : Int}
    (h : d.readOffset text seam = .offset n left) :
    left <:+ text := by
  unfold readOffset at h
  split at h
  · exact (readNumber_suffix h).trans (List.drop_suffix _ text)
  · cases h

end Dialect

end MessageFormat
