/-!
# Spans

A span says where in a text something is: the positions of its first character and past its last
one, counted from 0, and the line and column of its first character, counted from 1.
-/

namespace MessageFormat

/-- A part of a text. -/
structure Span where
  start : Int
  stop : Int
  line : Int
  column : Int
deriving DecidableEq, Repr

namespace Span

/-- Why four numbers are no span. -/
inductive Fault where
  | startNegative (start : Int)
  | stopBeforeStart (start stop : Int)
  | lineNotPositive (line : Int)
  | columnNotPositive (column : Int)
deriving DecidableEq, Repr

/-- The wording of a fault. -/
def Fault.message : Fault → String
  | .startNegative start => s!"SourceSpan.start must be >= 0, got {start}"
  | .stopBeforeStart start stop => s!"SourceSpan.end ({stop}) must be >= start ({start})"
  | .lineNotPositive line => s!"SourceSpan.line must be >= 1, got {line}"
  | .columnNotPositive column => s!"SourceSpan.column must be >= 1, got {column}"

/-- The span of four numbers, unless they point nowhere; the first fault counts. -/
def make (start stop line column : Int) : Except Fault Span :=
  if start < 0 then
    .error (.startNegative start)
  else if stop < start then
    .error (.stopBeforeStart start stop)
  else if line < 1 then
    .error (.lineNotPositive line)
  else if column < 1 then
    .error (.columnNotPositive column)
  else
    .ok ⟨start, stop, line, column⟩

/-- The fields of a span as text. -/
def describe (span : Span) : String :=
  s!"SourceSpan(start={span.start}, end={span.stop}, line={span.line}, column={span.column})"

end Span

end MessageFormat
