import MessageFormat.Message.Place

/-!
# Failures of reading

Reading stops at the first fault. A failure says what the fault is and where it was found; how it
is worded is a matter of `MessageFormat.Diagnostic`.
-/

namespace MessageFormat

/-- What should have come next. -/
inductive Expectation where
  | placeholderId
  | type
  | format
  | number
  | submessages
  | selector
  | requiredSubmessage
  | closingTag
  | char (c : Char)
  | either (first second : Char)
deriving DecidableEq, Repr

/-- Why reading stopped. -/
inductive Cause where
  | expected (what : Expectation)
  /-- A closing tag where no tag is open. -/
  | strayClosingTag (slash : Char)
  /-- A closing tag of another name than the open tag; `length` characters long so far. -/
  | tagMismatch (opened closed : String) (length : Nat)
  /-- No rule applies to the next character. -/
  | noProgress
  /-- A character was needed and none is left. -/
  | endOfText
  /-- A body would lie deeper than the limit. -/
  | tooDeep (limit : Int)
  /-- A text that should be a number is none. -/
  | notNumber (text : String)
  /-- A number has more digits than any number may have. -/
  | tooManyDigits (digits : Nat)
deriving DecidableEq, Repr

/-- A fault and the place where it was found. -/
structure Failure where
  cause : Cause
  place : Place
deriving DecidableEq, Repr

/-- Fails because something else should have come next. -/
def Place.expected {α : Type} (p : Place) (what : Expectation) : Except Failure α :=
  .error ⟨.expected what, p⟩

end MessageFormat
