import MessageFormat.Report

/-!
# Nesting limits

Every walk over a message goes one level deeper for each nested body, and takes a number of stack
frames for each level. A limit is therefore lowered to what the stack can hold, and a guard counts
the levels that are entered.

The guard tests before it counts: a level that cannot be entered is not counted.
-/

namespace MessageFormat

/-- The nesting limit unless asked otherwise. -/
def standardDepth : Int :=
  100

/-- The number of stack frames there are unless said otherwise. -/
def standardFrames : Int :=
  1000

/-- The number of stack frames that are kept free unless asked otherwise. -/
def standardReserve : Int :=
  50

/-- The number of stack frames that one level takes. -/
def framesPerLevel : Int :=
  4

/-- The deepest level that fits a stack of so many frames: at least one level always does. -/
def safeDepth (frames reserve : Int) : Int :=
  max 1 ((frames - reserve).fdiv framesPerLevel)

/-- A nesting limit, lowered to what the stack can hold. -/
def clampDepth (frames reserve requested : Int) : Int :=
  if requested ≤ safeDepth frames reserve then
    requested
  else
    safeDepth frames reserve

/-- The report that a body lies deeper than the limit. -/
def Report.tooDeep (limit : Int) : Report :=
  Report.ofDiagnostic .depthLimit (Diagnostic.depthExceeded limit)

/-- A counter of the levels that are entered. -/
structure Guard where
  limit : Int
  depth : Int := 0
deriving DecidableEq, Repr

/-- A guard refuses to enter another level. -/
structure Guard.Full where
  limit : Int
deriving DecidableEq, Repr

namespace Guard

/-- Whether no further level may be entered. -/
def isFull (g : Guard) : Bool :=
  g.limit ≤ g.depth

/-- Tests whether another level may be entered. -/
def check (g : Guard) : Except Full Unit :=
  if g.isFull then
    .error ⟨g.limit⟩
  else
    .ok ()

/-- Enters a level. -/
def enter (g : Guard) : Except Full Guard :=
  if g.isFull then
    .error ⟨g.limit⟩
  else
    .ok { g with depth := g.depth + 1 }

/-- Leaves a level. -/
def leave (g : Guard) : Guard :=
  { g with depth := g.depth - 1 }

/-- A guard as text. -/
def describe (g : Guard) : String :=
  s!"DepthGuard(max_depth={g.limit}, current_depth={g.depth})"

end Guard

end MessageFormat
