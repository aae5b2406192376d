import MessageFormat.Dialect.Settings
import MessageFormat.Message.Account
import MessageFormat.Message.Grammar

/-!
# Readers

A reader reads whole texts in one dialect, within a size and a nesting limit. It is made from
settings or from a dialect, and its nesting limit is lowered to what the stack can hold.

`Dialect.read` reads a text without regard to its size; the rest of the module puts the limits
around it and tells failures with their positions.
-/

namespace MessageFormat

/-- The largest number of characters of a text unless asked otherwise. -/
def standardSize : Int :=
  10 * 1024 * 1024

/-- Reads a whole text as a body that nothing encloses. -/
def Dialect.read (d : Dialect) (limit : Int) (text : List Char) :
    Except Failure (Message × Place) :=
  match Context.readBody { dialect := d, limit := limit } { rest := text } with
  | .ok ⟨(body, p), _⟩ => .ok (body.nodes, p)
  | .error failure => .error failure

/-- Why a text is not read. -/
inductive ReadFault where
  /-- The text is too large to be read at all. -/
  | tooLarge (size : Nat) (limit : Int)
  | failure (failure : Failure)
deriving DecidableEq, Repr

/-- What reads texts. -/
structure Reader where
  dialect : Dialect
  /-- The largest number of characters of a text; without limit if it is not positive. -/
  maxSize : Int
  depthLimit : Int

namespace Reader

/-- Reads a text within the limits: the message, and the place where reading ended. -/
def read (r : Reader) (text : List Char) : Except ReadFault (Message × Place) :=
  if 0 < r.maxSize ∧ r.maxSize < text.length then
    .error (.tooLarge text.length r.maxSize)
  else
    (r.dialect.read r.depthLimit text).mapError .failure

/-- The message of a text. -/
def parse (r : Reader) (text : String) : Except ReadFault Message :=
  (r.read text.toList).map (·.1)

/-- Where a reader gets its dialect from. -/
inductive Origin where
  | settings (mapping : Value)
  | dialect (dialect : Dialect)

/-- The dialect of a reader. -/
def dialectOf (origin : Origin) (overrides : Value) : Logged Dialect :=
  match origin with
  | .settings mapping => Dialect.fromSettings mapping overrides
  | .dialect d =>
      if overrides.isVoid then
        pure d
      else do
        return (← d.merge overrides .null).dialect

/-- The names of the limits, which are no settings of a dialect. -/
def limitNames : List String :=
  ["max_source_size", "max_nesting_depth"]

/-- The name of a limit that a key is. -/
def limitName? : Value → Option String
  | .str name => if limitNames.contains name then some name else none
  | _ => none

/-- Refuses overriding settings that name a limit or are not named by strings. -/
def checkOverrides (overrides : Value) : Except Misuse Unit := do
  let entries := match overrides with
    | .dict entries => entries
    | _ => []
  match entries.findSome? fun (key, _) => limitName? key with
  | some name => .error (.repeatedLimit name)
  | none =>
      let _ ← overrideEntries overrides
      return ()

/-- Makes a reader, on a stack of so many frames. -/
def make (frames : Int) (origin : Origin) (overrides : Value) (maxSize depthLimit : Option Int) :
    Logged Reader := do
  Logged.of ((checkOverrides overrides).mapError .misuse)
  let dialect ← dialectOf origin overrides
  let limit ← clampDepthLogged frames standardReserve (depthLimit.getD standardDepth)
  if dialect ≠ .standard then
    Logged.note (.customDialect dialect)
  return ⟨dialect, maxSize.getD standardSize, limit⟩

end Reader

/-- The events that reading noted up to a place. -/
def Stretch.events (s : Stretch) (p : Place) : List Event :=
  p.kept.reverse.map fun left => .markupKept (s.cursorAt left).pos

/-- What is told about a text that is not read. -/
def ReadFault.toFault (s : Stretch) : ReadFault → Fault
  | .tooLarge size limit => .invalidValue (Diagnostic.sourceTooLarge size limit).message
  | .failure f => s.account f

/-- The place that a fault was found at. -/
def ReadFault.place? : ReadFault → Option Place
  | .tooLarge .. => none
  | .failure f => some f.place

/-- Reads the display text of a value. -/
def Reader.readValue (r : Reader) (v : Value) : Logged Message :=
  let text := v.display
  let chars := text.toList
  let s : Stretch := ⟨⟨text, 0⟩, chars.length⟩
  match r.read chars with
  | .ok (message, p) => ⟨s.events p, .ok message⟩
  | .error fault => ⟨fault.place?.elim [] s.events, .error (fault.toFault s)⟩

/-- Reads the display text of a value, unless the value cannot be shown. -/
def Reader.readAnything (r : Reader) (v : Value) : Logged Message :=
  if v.isShowable then
    r.readValue v
  else
    Logged.fail (.invalidValue overlongMessage)

/-- For what can be shown, such as every text, there is no difference. -/
theorem Reader.readAnything_of_isShowable
    (r : Reader) {v : Value} (h : v.isShowable = true) :
    r.readAnything v = r.readValue v :=
  if_pos h

end MessageFormat
