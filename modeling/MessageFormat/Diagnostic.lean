import MessageFormat.Cursor
import MessageFormat.Offset

/-!
# Diagnostics

A diagnostic describes one fault: a stable code, a one-line message, and, as far as they are known,
the place, a hint, what was expected, what was found instead, and the settings involved. The
wording of every fault is fixed here, one definition for each code.
-/

namespace MessageFormat

/-- Stable codes, by thousands: settings, limits, syntax, writing. -/
inductive Code where
  | optionLength
  | optionConflict
  | optionValue
  | depthExceeded
  | sourceTooLarge
  | unexpectedEnd
  | expectedToken
  | unexpectedCharacter
  | tagMismatch
  | noProgress
  | unwritable
deriving DecidableEq, Repr

namespace Code

/-- The codes in ascending order. -/
def all : List Code :=
  [optionLength, optionConflict, optionValue, depthExceeded, sourceTooLarge, unexpectedEnd,
    expectedToken, unexpectedCharacter, tagMismatch, noProgress, unwritable]

/-- The number of a code. -/
def value : Code → Nat
  | optionLength => 1001
  | optionConflict => 1002
  | optionValue => 1003
  | depthExceeded => 2001
  | sourceTooLarge => 2002
  | unexpectedEnd => 3001
  | expectedToken => 3002
  | unexpectedCharacter => 3003
  | tagMismatch => 3004
  | noProgress => 3005
  | unwritable => 4001

/-- The name of a code. -/
def label : Code → String
  | optionLength => "OPTION_INVALID_LENGTH"
  | optionConflict => "OPTION_CONFLICT"
  | optionValue => "OPTION_INVALID_VALUE"
  | depthExceeded => "MAX_DEPTH_EXCEEDED"
  | sourceTooLarge => "SOURCE_TOO_LARGE"
  | unexpectedEnd => "UNEXPECTED_EOF"
  | expectedToken => "EXPECTED_TOKEN"
  | unexpectedCharacter => "UNEXPECTED_CHARACTER"
  | tagMismatch => "TAG_MISMATCH"
  | noProgress => "NO_PROGRESS"
  | unwritable => "SERIALIZATION_INVALID"

/-- The code of a name. -/
def ofLabel? (name : String) : Option Code :=
  all.find? (·.label == name)

end Code

/-- How bad a fault is. Callers that make diagnostics of their own may use further names. -/
inductive Severity where
  | error
  | warning
  | other (name : String)
deriving DecidableEq, Repr

namespace Severity

/-- The name of a severity. -/
def label : Severity → String
  | error => "error"
  | warning => "warning"
  | other name => name

/-- The severity of a name. -/
def ofLabel (name : String) : Severity :=
  if name = "error" then
    error
  else if name = "warning" then
    warning
  else
    other name

end Severity

/-- A description of one fault. -/
structure Diagnostic where
  code : Code
  message : String
  span : Option Span := none
  hint : Option String := none
  expected : Option String := none
  found : Option String := none
  options : List String := []
  severity : Severity := .error
deriving DecidableEq, Repr

/-- The digits of a number in groups of three. -/
def groupDigits (digits : List Char) : List Char :=
  (digits.reverse.zipIdx.flatMap fun (c, i) => if i % 3 = 0 && 0 < i then [',', c] else [c]).reverse

/-- A number with a comma between each group of three digits. -/
def grouped (n : Int) : String :=
  (if n < 0 then "-" else "") ++ String.ofList (groupDigits (Nat.toDigits 10 n.natAbs))

namespace Diagnostic

/-- The text for what was found, where the end of the text has a name of its own. -/
def describeFound : Option String → String
  | some found => if found.isEmpty then "eof" else found
  | none => "eof"

/-- A delimiter setting is not a single character. -/
def optionLength (option : String) : Diagnostic where
  code := .optionLength
  message := s!"Option {option} must be a 1-length string"
  hint := "Delimiters are compared character by character"
  options := [option]

/-- Two delimiter settings share a character. -/
def optionConflict (first second : String) : Diagnostic where
  code := .optionConflict
  message := s!"Option {first} and {second} cannot match"
  hint := "Every delimiter role needs its own character"
  options := [first, second]

/-- A setting has a value that cannot be used. -/
def optionValue (option reason : String) : Diagnostic where
  code := .optionValue
  message := s!"Option {option} {reason}"
  options := [option]

/-- Something that is required is missing. -/
def expectedToken (expected : String) (found : Option String) (span : Span) : Diagnostic where
  code := .expectedToken
  message := s!"expected {expected} at position {span.start} but found {describeFound found}"
  span := span
  expected := expected
  found := describeFound found

/-- A character is not allowed where it stands. -/
def unexpectedCharacter (character : String) (span : Span) : Diagnostic where
  code := .unexpectedCharacter
  message := s!"unexpected {character} at position {span.start}"
  span := span
  found := character

/-- A closing tag has another name than the innermost open tag. -/
def tagMismatch (opened closed : String) (span : Span) : Diagnostic where
  code := .tagMismatch
  message := s!"unexpected tag mismatch at position {span.start}"
  span := span
  hint := s!"Close <{opened}> before closing <{closed}>"
  expected := opened
  found := closed

/-- Reading came to a character for which there is no rule. -/
def noProgress (character : Option String) (span : Span) : Diagnostic where
  code := .noProgress
  message := s!"unexpected {describeFound character} at position {span.start}"
  span := span
  hint := "This is a parser bug; please report the message that triggered it"
  found := describeFound character

/-- A character was needed past the end. -/
def unexpectedEnd (position : Int) : Diagnostic where
  code := .unexpectedEnd
  message := Cursor.endOfTextMessage position

/-- A body lies deeper than the limit. -/
def depthExceeded (limit : Int) : Diagnostic where
  code := .depthExceeded
  message := s!"Maximum nesting depth ({limit}) exceeded"
  hint := "Flatten nested placeholders and tags, or raise max_nesting_depth"

/-- A text is longer than allowed. -/
def sourceTooLarge (size limit : Int) : Diagnostic where
  code := .sourceTooLarge
  message :=
    s!"Source size ({grouped size} characters) exceeds maximum ({grouped limit} characters)"
  hint := "Configure max_source_size in the MessageParser constructor to increase limit"

/-- A message cannot be written as text. -/
def unwritable (reason : String) : Diagnostic where
  code := .unwritable
  message := s!"Cannot serialize message: {reason}"

end Diagnostic

end MessageFormat
