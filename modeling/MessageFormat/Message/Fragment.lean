import MessageFormat.Reader

/-!
# Fragments

A fragment of a text can be read on its own, from any cursor and in any context: a text, an offset
clause, a body, a placeholder, a list of sub-messages, or markup.

The rules for a placeholder and for markup do not test the character they start on, which does not
even have to be there: it may lie past the end, or just before the first character that a negative
position can count to. An offset keyword is looked for from the start of the text if the cursor
lies before it.
-/

namespace MessageFormat

/-- What a fragment is read as. -/
inductive Fragment.Kind where
  | body
  | placeholder
  | submessages
  | markup
deriving DecidableEq, Repr

/-- What was read of a fragment. -/
inductive Fragment where
  | body (body : Body)
  | node (node : Node)
  | submessages (submessages : Submessages)
  | closingTag (name : String)
deriving DecidableEq

/-- What was read from a cursor, and the position after it. -/
structure FromCursor (α : Type) where
  value : α
  pos : Int
deriving DecidableEq

namespace Cursor

/-- The cursor, moved to the end of the text if it lies past it. -/
def withinText (c : Cursor) : Cursor :=
  { c with pos := min c.pos c.length }

/-- Reads by a rule on places, with these characters ahead of the cursor. -/
def readAhead {α : Type} (c : Cursor) (ahead : List Char)
    (rule : Place → Except Failure (α × Place)) : Logged (FromCursor α) :=
  let s : Stretch := ⟨c, ahead.length⟩
  match rule { rest := ahead } with
  | .ok (value, p) => ⟨s.events p, .ok ⟨value, (s.cursorAt p.left).pos⟩⟩
  | .error f => ⟨s.events f.place, .error (s.account f)⟩

/-- Reads from a cursor by a rule on places. -/
def readBy {α : Type} (c : Cursor) (rule : Place → Except Failure (α × Place)) :
    Logged (FromCursor α) :=
  match c.ahead with
  | .error m => Logged.fail (.misuse m)
  | .ok ahead => c.readAhead ahead rule

/-- Reads quoted text from a cursor. -/
def readText (c : Cursor) (d : Dialect) (m : Mode) : Logged (FromCursor String) :=
  c.readBy fun p => .ok (p.scan d m)

/-- Reads an offset clause from a cursor. -/
def readOffset (c : Cursor) (d : Dialect) : Logged (FromCursor (Option Int)) :=
  if c.isBeforeStart then
    if c.startsWith d.offsetKeyword then
      let number := c.advance d.offsetKeyword.toList.length
      number.readBy fun p => Dialect.offsetResult p (Dialect.readNumber p.rest number.seam)
    else
      pure ⟨none, c.pos⟩
  else
    c.readBy fun p => d.readOffsetNumber p c.seam

end Cursor

/-- What was read of a piece of markup. -/
def Fragment.ofPiece : Piece → Fragment
  | .node n => .node n
  | .closingTag name => .closingTag name

/-- The fragment without the opener in front of text that is kept. -/
def Fragment.withoutOpener : Fragment → Fragment
  | .node (.text s) => .node (.text (String.ofList (s.toList.drop 1)))
  | fragment => fragment

namespace Context

/-- The same context for reading from a cursor. -/
def readingFrom (cx : Context) (c : Cursor) : Context :=
  { cx with seam := c.seam }

/-- Reads a placeholder, whose opener is taken to be at the cursor. -/
def readPlaceholderAt (cx : Context) (c : Cursor) : Logged (FromCursor Fragment) :=
  let start := c.advance 1
  start.readBy fun p =>
    ((cx.readingFrom start).readPlaceholder p).plain.map fun (node, q) => (.node node, q)

/-- Reads a placeholder or a reference sign that stands for a number. -/
def readElement (cx : Context) (c : Cursor) : Logged (FromCursor Fragment) :=
  match cx.referent with
  | none => cx.readPlaceholderAt c
  | some id =>
      match c.current with
      | .error fault => Logged.fail fault.toFault
      | .ok char =>
          if char = cx.dialect.reference then
            pure ⟨.node (.reference id), (c.advance 1).pos⟩
          else
            cx.readPlaceholderAt c

/-- Reads markup, whose opener is taken to be at the cursor. Where there is no character at the
cursor, an opener is put in front of what is read, and left out of what is kept as text. -/
def readMarkupAt (cx : Context) (c : Cursor) : Logged (FromCursor Fragment) :=
  let rule (p : Place) := ((cx.readingFrom c).readMarkup p).plain
  if c.isBeforeStart then
    match (c.advance 1).ahead with
    | .error m => Logged.fail (.misuse m)
    | .ok ahead =>
        c.readAhead (cx.dialect.tagOpener :: ahead) fun p =>
          (rule p).map fun (piece, q) => ((Fragment.ofPiece piece).withoutOpener, q)
  else
    c.withinText.readBy fun p => (rule p).map fun (piece, q) => (Fragment.ofPiece piece, q)

/-- Reads a fragment from a cursor. -/
def readFragment (cx : Context) (kind : Fragment.Kind) (c : Cursor) :
    Logged (FromCursor Fragment) :=
  match kind with
  | .body =>
      c.readBy fun p =>
        ((cx.readingFrom c).readBody p).plain.map fun (body, q) => (.body body, q)
  | .placeholder => cx.readElement c
  | .submessages =>
      c.readBy fun p =>
        ((cx.readingFrom c).readSubmessages p).plain.map fun (subs, q) => (.submessages subs, q)
  | .markup => cx.readMarkupAt c

end Context

end MessageFormat
