import MessageFormat.Quoted
import MessageFormat.Text.Seam

/-!
# Places in a text

A place is where reading has come to: the characters that are left, and a record of the markup
that turned out to be text on the way. What is left after a move is the end of what was left
before it (`Follows`); the lemmas say so for each move, which is what reading relies on to come to
an end.

Positions are not stored. A position is the length of the whole text less the number of
characters left, and only reports need it.
-/

namespace MessageFormat

/-- Where reading has come to. -/
structure Place where
  /-- The characters that are left. -/
  rest : List Char
  /-- For each piece of markup that was kept as text, the number of characters that were left at
  its start, the latest piece first. -/
  kept : List Nat := []
deriving DecidableEq, Repr

namespace Place

/-- The number of characters that are left. -/
def left (p : Place) : Nat :=
  p.rest.length

/-- The next character. -/
def peek (p : Place) : Option Char :=
  p.rest.head?

/-- The place after the next character. -/
def advance (p : Place) : Place :=
  { p with rest := p.rest.tail }

/-- The place after any blanks. -/
def skip (p : Place) : Place :=
  { p with rest := skipBlanks p.rest }

/-- Reads quoted text of a mode. -/
def scan (p : Place) (d : Dialect) (m : Mode) : String × Place :=
  let (text, left) := d.scan m p.rest
  (String.ofList text, { p with rest := left })

/-- The characters between a place and a later one. -/
def upTo (p q : Place) (seam : Seam := none) : String :=
  String.ofList (seam.between p.rest q.rest)

/-- Records that the markup at an earlier place was kept as text. -/
def keep (p start : Place) : Place :=
  { p with kept := start.left :: p.kept }

/-- A place comes after another one, or is the same: what is left at it is the end of what is left
at the other one. -/
def Follows (q p : Place) : Prop :=
  q.rest <:+ p.rest

theorem Follows.refl
    (p : Place) :
    p.Follows p :=
  List.suffix_rfl

theorem Follows.trans
    {p q r : Place}
    (hr : r.Follows q) (hq : q.Follows p) :
    r.Follows p :=
  List.IsSuffix.trans hr hq

theorem Follows.left_le
    {p q : Place}
    (h : q.Follows p) :
    q.left ≤ p.left :=
  h.length_le

theorem advance_follows
    (p : Place) :
    p.advance.Follows p :=
  List.tail_suffix p.rest

theorem advance_left_lt
    {p : Place} {c : Char}
    (h : p.peek = some c) :
    p.advance.left < p.left := by
  cases hp : p.rest with
  | nil =>
      simp [peek, hp] at h
  | cons x rest =>
      simp [advance, left, hp]

theorem skip_follows
    (p : Place) :
    p.skip.Follows p :=
  skipBlanks_suffix p.rest

theorem scan_follows
    (p : Place) (d : Dialect) (m : Mode) :
    (p.scan d m).2.Follows p :=
  d.scan_suffix m p.rest

/-- Scanning takes at least one character if the next one does not end the text. -/
theorem scan_follows_advance
    {p : Place} {d : Dialect} {m : Mode} {c : Char}
    (hpeek : p.peek = some c) (hc : d.stops m c = false) :
    (p.scan d m).2.Follows p.advance := by
  cases hp : p.rest with
  | nil =>
      simp [peek, hp] at hpeek
  | cons x rest =>
      obtain rfl : x = c := by
        simpa [peek, hp] using hpeek
      simpa [Follows, scan, advance, hp] using Dialect.scan_suffix_tail hc

theorem keep_follows
    (p start : Place) :
    (p.keep start).Follows p :=
  Follows.refl p

end Place

end MessageFormat
