import MessageFormat.Span
import MessageFormat.Text.Blank
import MessageFormat.Text.Seam
import MessageFormat.Text.Slice
import MessageFormat.Value

/-!
# Cursors

A cursor is a position in a text. It may lie outside of the text: past the end there is nothing to
read, and a negative position counts from the end of the text. Line and column are found by
looking back from the position, so that reading does not have to keep track of them.
-/

namespace MessageFormat

/-- A position in a text. -/
structure Cursor where
  source : String
  pos : Int
deriving DecidableEq, Repr

namespace Cursor

/-- Why there is no current character. -/
inductive Fault where
  | endOfText (pos : Int)
  | misuse (misuse : Misuse)
deriving DecidableEq, Repr

/-- The wording for a character that is needed past the end. -/
def endOfTextMessage (pos : Int) : String :=
  s!"Unexpected EOF at position {pos}"

/-- The length of the text. -/
def length (c : Cursor) : Int :=
  c.source.toList.length

/-- Whether nothing is left to read. -/
def isEof (c : Cursor) : Bool :=
  c.length ≤ c.pos

/-- The character at a position before the end, where negative positions count from the end. -/
def charAt (c : Cursor) (index : Int) : Except Misuse Char :=
  let chars := c.source.toList
  match if index < 0 then chars.reverse[(-index - 1).toNat]? else chars[index.toNat]? with
  | some char => .ok char
  | none => .error .indexOutOfRange

/-- The current character. -/
def current (c : Cursor) : Except Fault Char :=
  if c.isEof then
    .error (.endOfText c.pos)
  else
    (c.charAt c.pos).mapError .misuse

/-- The character some places ahead, or nothing past the end. -/
def peek (c : Cursor) (offset : Int) : Except Misuse (Option Char) :=
  if c.pos + offset < c.length then
    (c.charAt (c.pos + offset)).map some
  else
    .ok none

/-- The cursor some places ahead, but not past the end. -/
def advance (c : Cursor) (count : Int) : Cursor :=
  { c with pos := min (c.pos + count) c.length }

/-- The text from the cursor to a bound. -/
def sliceTo (c : Cursor) (stop : Int) : String :=
  String.ofList (slice c.source.toList c.pos stop)

/-- Whether the text goes on with another one. -/
def startsWith (c : Cursor) (text : String) : Bool :=
  let start := if c.pos < 0 then max (c.length + c.pos) 0 else c.pos
  start + text.toList.length ≤ c.length && text.toList.isPrefixOf (c.source.toList.drop start.toNat)

/-- The characters that reading from the cursor meets. Reading from a negative position comes to
the end of the text and then goes through the whole of it. -/
def ahead (c : Cursor) : Except Misuse (List Char) :=
  let chars := c.source.toList
  if 0 ≤ c.pos then
    .ok (chars.drop c.pos.toNat)
  else if 0 ≤ c.length + c.pos then
    .ok (chars.drop (c.length + c.pos).toNat ++ chars)
  else
    .error .indexOutOfRange

/-- Where reading from the cursor starts over. -/
def seam (c : Cursor) : Seam :=
  if c.pos < 0 then
    some c.source.toList.length
  else
    none

/-- Whether the cursor lies before the first character, even counted from the end. -/
def isBeforeStart (c : Cursor) : Bool :=
  c.pos < -c.length

/-- The cursor after any blanks. -/
def skipBlanks (c : Cursor) : Except Misuse Cursor := do
  let chars ← c.ahead
  return { c with pos := c.pos + (chars.takeWhile isBlank).length }

/-- The line and the column of the cursor, counted from 1. -/
def lineColumn (c : Cursor) : Int × Int :=
  let before := slice c.source.toList 0 c.pos
  let lineStart := before.length - (lastLine before).length
  (before.count '\n' + 1, c.pos - lineStart + 1)

/-- The span from the cursor to a position: without one, past the current character if there is
one. -/
def span (c : Cursor) (stop : Option Int) : Except Span.Fault Span :=
  let stop := stop.getD (if c.isEof then c.pos else c.pos + 1)
  let (line, column) := c.lineColumn
  Span.make c.pos (max stop c.pos) line column

end Cursor

end MessageFormat
