import MessageFormat.Depth
import MessageFormat.Message.Failure
import MessageFormat.Text.Literal

/-!
# Accounts of failures

How a failure of reading is told: which diagnostic it has and which part of the text it points at.
The position of a place is that of the cursor from which reading started, moved by the number of
characters read since.
-/

namespace MessageFormat

/-- The wording of an expectation. -/
def Expectation.describe : Expectation → String
  | .placeholderId => "placeholder id"
  | .type => "type"
  | .format => "format"
  | .number => "number"
  | .submessages => "sub-messages"
  | .selector => "sub-message selector"
  | .requiredSubmessage => requiredSelector ++ " sub-message"
  | .closingTag => "closing tag"
  | .char c => c.toString
  | .either first second => first.toString ++ " or " ++ second.toString

/-- The wording for a number with too many digits. -/
def tooManyDigitsMessage (digits : Nat) : String :=
  s!"Exceeds the limit ({maxDigits} digits) for integer string conversion: value has {digits} " ++
    "digits; use sys.set_int_max_str_digits() to increase the limit"

/-- The wording for a text that should be a number. -/
def notNumberMessage (text : String) : String :=
  s!"invalid literal for int() with base 10: {stringLiteral text}"

/-- A stretch of text that is being read. -/
structure Stretch where
  /-- Where reading started. -/
  origin : Cursor
  /-- The number of characters that were left there. -/
  length : Nat
deriving DecidableEq, Repr

namespace Stretch

/-- The cursor at which so many characters are left. -/
def cursorAt (s : Stretch) (left : Nat) : Cursor :=
  { s.origin with pos := s.origin.pos + ((s.length : Int) - left) }

/-- The report of a diagnostic about a part of the text. -/
def report (s : Stretch) (kind : Report.Kind) (left : Nat) (length : Option Nat)
    (diagnostic : Span → Diagnostic) : Fault :=
  let cursor := s.cursorAt left
  match cursor.span (length.map fun n => cursor.pos + n) with
  | .error fault => .invalidValue fault.message
  | .ok span => .reported (Report.ofDiagnostic kind (diagnostic span) s.origin.source)

/-- What is told about a failure. -/
def account (s : Stretch) (f : Failure) : Fault :=
  let left := f.place.left
  let next := f.place.peek.map Char.toString
  match f.cause with
  | .expected what =>
      s.report .expectedToken left none (Diagnostic.expectedToken what.describe next)
  | .strayClosingTag slash =>
      s.report .unexpectedCharacter left none (Diagnostic.unexpectedCharacter slash.toString)
  | .tagMismatch opened closed length =>
      s.report .unexpectedCharacter left length (Diagnostic.tagMismatch opened closed)
  | .noProgress => s.report .unexpectedCharacter left none (Diagnostic.noProgress next)
  | .endOfText => .endOfText (s.cursorAt left).pos
  | .tooDeep limit => .reported (Report.tooDeep limit)
  | .notNumber text => .invalidValue (notNumberMessage text)
  | .tooManyDigits digits => .invalidValue (tooManyDigitsMessage digits)

end Stretch

end MessageFormat
