/-!
# Blanks

The characters that separate the parts of a placeholder, of a selector list and of a tag: the
ASCII blanks, the no-break spaces, the Unicode space separators, the line and paragraph
separators and the byte order mark.
-/

namespace MessageFormat

/-- Every blank character. -/
def blanks : List Char :=
  ['\t', '\n', '\u000b', '\u000c', '\r', ' ', '\u00a0', '\u1680',
    '\u2000', '\u2001', '\u2002', '\u2003', '\u2004', '\u2005',
    '\u2006', '\u2007', '\u2008', '\u2009', '\u200a', '\u2028',
    '\u2029', '\u202f', '\u205f', '\u3000', '\ufeff']

/-- Whether a character is a blank. -/
def isBlank (c : Char) : Bool :=
  blanks.contains c

/-- What is left of a text once its leading blanks are skipped. -/
def skipBlanks (text : List Char) : List Char :=
  text.dropWhile isBlank

/-- A text without its trailing blanks. -/
def trimBlanksEnd (text : List Char) : List Char :=
  (text.reverse.dropWhile isBlank).reverse

theorem skipBlanks_suffix
    (text : List Char) :
    skipBlanks text <:+ text :=
  List.dropWhile_suffix isBlank

@[simp] theorem skipBlanks_nil :
    skipBlanks [] = [] := by
  rfl

end MessageFormat
