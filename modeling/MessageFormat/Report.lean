import MessageFormat.Diagnostic.Render

/-!
# Reports

A report is what a caller is told when a message cannot be used: its kind, a message or a whole
diagnostic, and the text that was read. Syntax reports show where in the text the fault is.

Not every failure is a report. Values that are used against their type, malformed data and
characters past the end are told as they are (`Fault`).
-/

namespace MessageFormat

/-- What a report is about. -/
inductive Report.Kind where
  | general
  | configuration
  | malformed
  | expectedToken
  | unexpectedCharacter
  | unwritable
  | depthLimit
deriving DecidableEq, Repr

/-- Whether a kind is about the syntax of a text. -/
def Report.Kind.isSyntax : Report.Kind → Bool
  | .malformed | .expectedToken | .unexpectedCharacter => true
  | _ => false

/-- Whether a kind is about a value that cannot be used. -/
def Report.Kind.isInvalidValue : Report.Kind → Bool
  | .configuration | .unwritable => true
  | _ => false

/-- What a caller is told when a message cannot be used. -/
structure Report where
  kind : Report.Kind
  message : String
  diagnostic : Option Diagnostic := none
  /-- The text that was read, empty if it is not known. -/
  source : String := ""
deriving DecidableEq, Repr

namespace Report

/-- A report of a diagnostic. -/
def ofDiagnostic (kind : Kind) (d : Diagnostic) (source : String := "") : Report :=
  ⟨kind, d.message, some d, source⟩

/-- Where the fault is. -/
def span (r : Report) : Option Span :=
  r.diagnostic.bind (·.span)

/-- A line of the text after its number, which takes at least four places. -/
def gutter (number : Int) : String :=
  let digits := (decimal number).toList
  String.ofList (List.replicate (4 - digits.length) ' ' ++ digits) ++ " | "

/-- A line of the text, and under the line with the fault a caret. -/
def contextLine (lines : List String) (line column number : Int) : List String :=
  let shown := gutter number ++ (lines[(number - 1).toNat]?).getD ""
  if number = line then
    let indent := (gutter number).toList.length + (column - 1).toNat
    [shown, String.ofList (List.replicate indent ' ') ++ "^"]
  else
    [shown]

/-- The numbers from one number to another. -/
def numbersFrom (first last : Int) : List Int :=
  (List.range (last + 1 - first).toNat).map fun i : Nat => first + (i : Int)

/-- The lines around a fault, numbered, with a caret under its position. -/
def surroundings (lines : List String) (line column contextLines : Int) : List String :=
  let first := max 1 (line - contextLines)
  let last := min (lines.length : Int) (line + contextLines)
  (numbersFrom first last).flatMap (contextLine lines line column)

/-- The message, and below it the lines around the fault with a caret under its position, if both
the text and the position are known. -/
def withContext (r : Report) (contextLines : Int) : String :=
  match r.span with
  | none => r.message
  | some span =>
      if r.source.isEmpty then
        r.message
      else
        let head := decimal span.line ++ ":" ++ decimal span.column ++ ": " ++ r.message
        String.intercalate "\n"
          (head :: "" :: surroundings (linesOf r.source) span.line span.column contextLines)

end Report

/-- The number of lines that a report shows before and after the fault unless asked otherwise. -/
def standardContextLines : Int :=
  2

/-- What a caller is told instead of a result. -/
inductive Fault where
  | reported (report : Report)
  | invalidValue (message : String)
  | misuse (misuse : Misuse)
  | endOfText (pos : Int)
  /-- A value stands where only a node can stand. -/
  | unreachable (valueLiteral : String)
deriving DecidableEq, Repr

/-- The wording of a fault. -/
def Fault.message : Fault → String
  | .reported report => report.message
  | .invalidValue message => message
  | .misuse m => m.message
  | .endOfText pos => Cursor.endOfTextMessage pos
  | .unreachable valueLiteral =>
      let chars := valueLiteral.toList
      let shown :=
        if chars.length ≤ 100 then valueLiteral else String.ofList (chars.take 100) ++ "..."
      "Expected code to be unreachable, but got: " ++ shown

/-- The fault of a cursor without a current character. -/
def Cursor.Fault.toFault : Cursor.Fault → MessageFormat.Fault
  | .endOfText pos => .endOfText pos
  | .misuse m => .misuse m

end MessageFormat
