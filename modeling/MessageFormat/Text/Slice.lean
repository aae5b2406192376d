/-!
# Slices and lines

A bound of a slice counts from the end of the text if it is negative, and is moved to the nearest
position inside the text if it lies outside. Lines are separated by line feeds; a text has one
more line than line feeds.
-/

namespace MessageFormat

/-- The position that a bound stands for in a text of the given length. -/
def bound (length : Nat) (i : Int) : Nat :=
  if i < 0 then
    (length + i).toNat
  else
    min i.toNat length

/-- The part of a text between two bounds. -/
def slice (text : List Char) (start stop : Int) : List Char :=
  (text.take (bound text.length stop)).drop (bound text.length start)

/-- Splits a text at every line feed. -/
def splitLines : List Char → List (List Char)
  | [] => [[]]
  | c :: rest =>
      if c = '\n' then
        [] :: splitLines rest
      else
        match splitLines rest with
        | [] => [[c]]
        | line :: lines => (c :: line) :: lines

/-- The lines of a text. -/
def linesOf (text : String) : List String :=
  (splitLines text.toList).map String.ofList

/-- The last line of a text. -/
def lastLine (text : List Char) : List Char :=
  (text.reverse.takeWhile (· ≠ '\n')).reverse

theorem splitLines_length
    (text : List Char) :
    (splitLines text).length = text.count '\n' + 1 := by
  induction text with
  | nil =>
      rfl
  | cons c rest ih =>
      by_cases hc : c = '\n'
      · simp [splitLines, hc, ih]
      · cases hs : splitLines rest with
        | nil =>
            simp [hs] at ih
        | cons line lines =>
            simp [hs] at ih
            simp [splitLines, hc, hs, ih]

end MessageFormat
