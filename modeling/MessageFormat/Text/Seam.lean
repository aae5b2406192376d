/-!
# Reading across the end of a text

A negative position counts from the end of the text. Reading that begins at one comes to the end
and goes on at the start of the text: what lies ahead is the end of the text followed by the whole
of it. The seam is where the two meet.

What lies ahead is a list of characters, and a place in it is known by the number of characters
left, so the seam is given by the length of the text. Characters are read across the seam one by
one. A part of the text that is asked for as a whole never reaches across it: a keyword must come
before the seam, and between a negative position and one that is not, only those characters lie
that both positions count.
-/

namespace MessageFormat

/-- The number of characters left where the text starts over, if reading began before that. -/
abbrev Seam := Option Nat

namespace Seam

/-- The characters ahead, up to the seam if it lies ahead. -/
def near (seam : Seam) (ahead : List Char) : List Char :=
  match seam with
  | none => ahead
  | some size =>
      if size < ahead.length then
        ahead.take (ahead.length - size)
      else
        ahead

/-- The characters that lie between two places on different sides of the seam, by the positions of
the places. Both positions are counted from the start of the text, so the distance between them is
that which was read less the length of the text. There is no such part if the places are on the
same side. -/
def across? (seam : Seam) (ahead later : List Char) : Option (List Char) :=
  match seam with
  | none => none
  | some size =>
      if size < ahead.length ∧ later.length ≤ size then
        some (ahead.take (ahead.length - later.length - size))
      else
        none

/-- The characters that lie between two places, by the positions of the places. -/
def between (seam : Seam) (ahead later : List Char) : List Char :=
  (seam.across? ahead later).getD (ahead.take (ahead.length - later.length))

@[simp] theorem near_none
    (ahead : List Char) :
    near none ahead = ahead := by
  rfl

@[simp] theorem across?_none
    (ahead later : List Char) :
    across? none ahead later = none := by
  rfl

@[simp] theorem between_none
    (ahead later : List Char) :
    between none ahead later = ahead.take (ahead.length - later.length) := by
  rfl

end Seam

end MessageFormat
