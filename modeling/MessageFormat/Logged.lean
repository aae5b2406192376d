import MessageFormat.Depth
import MessageFormat.Dialect.Draft

/-!
# Logged outcomes

Some calls note things that are no failures: settings that are ignored, a nesting limit that is
lowered, a dialect that is not the standard one, markup that turned out to be text. The notes come
with the outcome of the call, in order, and are there also if the call fails.
-/

namespace MessageFormat

/-- Something worth noting. -/
inductive Event where
  /-- Settings of these names do not exist. -/
  | settingsIgnored (names : String)
  | depthClamped (requested frames safe : Int)
  | customDialect (dialect : Dialect)
  /-- The markup at a position is no tag. -/
  | markupKept (position : Int)
deriving DecidableEq

/-- How important an event is. -/
inductive Event.Level where
  | debug
  | warning
deriving DecidableEq, Repr

namespace Event

/-- The level of an event. -/
def level : Event → Level
  | .settingsIgnored _ | .depthClamped .. => .warning
  | .customDialect _ | .markupKept _ => .debug

/-- The wording of an event. -/
def message : Event → String
  | .settingsIgnored names => s!"Ignoring unknown parser options: {names}"
  | .depthClamped requested frames safe =>
      s!"Nesting depth {requested} needs more stack than the recursion limit ({frames}) allows. " ++
        s!"Clamping to {safe}; raise sys.setrecursionlimit() to allow deeper messages."
  | .customDialect d => s!"MessageParser created with custom options: {d.describe}"
  | .markupKept position => s!"Markup at position {position} is not a tag, keeping it as text"

end Event

/-- The outcome of a call and what it noted. -/
structure Logged (α : Type) where
  events : List Event
  outcome : Except Fault α

namespace Logged

/-- Notes an event. -/
def note (event : Event) : Logged Unit :=
  ⟨[event], .ok ()⟩

/-- An outcome without notes. -/
def of {α : Type} (outcome : Except Fault α) : Logged α :=
  ⟨[], outcome⟩

/-- Failure without notes. -/
def fail {α : Type} (fault : Fault) : Logged α :=
  ⟨[], .error fault⟩

/-- Goes on with a result, and keeps the notes of both calls. -/
def andThen {α β : Type} (x : Logged α) (f : α → Logged β) : Logged β :=
  match x.outcome with
  | .ok a => ⟨x.events ++ (f a).events, (f a).outcome⟩
  | .error fault => ⟨x.events, .error fault⟩

instance : Monad Logged where
  pure a := ⟨[], .ok a⟩
  bind := andThen

/-- The outcome as a result, so that a failure does not end the call. -/
def attempt {α : Type} (x : Logged α) : Logged (Except Fault α) :=
  ⟨x.events, .ok x.outcome⟩

end Logged

@[simp] theorem mapError_ok
    {ε ε' α : Type} (f : ε → ε') (a : α) :
    (Except.ok a : Except ε α).mapError f = .ok a := by
  rfl

@[simp] theorem mapError_error
    {ε ε' α : Type} (f : ε → ε') (e : ε) :
    (Except.error e : Except ε α).mapError f = .error (f e) := by
  rfl

/-- A nesting limit that fits a stack, with a note if it had to be lowered. -/
def clampDepthLogged (frames reserve requested : Int) : Logged Int :=
  let limit := clampDepth frames reserve requested
  if limit = requested then
    pure limit
  else do
    Logged.note (.depthClamped requested frames limit)
    return limit

end MessageFormat
