/-!
# Dialects

A dialect fixes how a message is spelled: the eight delimiter characters, the keyword of the
offset clause, the types whose sub-messages may refer back to a number, the types that take
sub-messages at all, and whether markup tags are read.

The eight delimiters of a dialect are pairwise different, so a character plays at most one role.
-/

namespace MessageFormat

/-- The part that a delimiter character plays in a message. -/
inductive Role where
  | opener
  | closer
  | tagOpener
  | tagCloser
  | tagSlash
  | separator
  | reference
  | quote
deriving DecidableEq, Repr

namespace Role

/-- The roles in the order in which settings are checked. -/
def all : List Role :=
  [opener, closer, tagOpener, tagCloser, tagSlash, separator, reference, quote]

/-- The name of a role in settings and reports. -/
def label : Role → String
  | opener => "OPEN"
  | closer => "CLOSE"
  | tagOpener => "TAG_OPEN"
  | tagCloser => "TAG_CLOSE"
  | tagSlash => "TAG_CLOSING"
  | separator => "SEP"
  | reference => "SUB_VAR"
  | quote => "ESCAPE"

/-- The roles that are checked before the given one. -/
def earlier (r : Role) : List Role :=
  all.takeWhile (· ≠ r)

theorem mem_all
    (r : Role) :
    r ∈ all := by
  cases r <;> decide

end Role

/-- One character for each role. -/
structure Delimiters where
  opener : Char := '{'
  closer : Char := '}'
  tagOpener : Char := '<'
  tagCloser : Char := '>'
  tagSlash : Char := '/'
  separator : Char := ','
  reference : Char := '#'
  quote : Char := '\''
deriving DecidableEq, Repr

namespace Delimiters

/-- The character that plays a role. -/
def char (d : Delimiters) : Role → Char
  | .opener => d.opener
  | .closer => d.closer
  | .tagOpener => d.tagOpener
  | .tagCloser => d.tagCloser
  | .tagSlash => d.tagSlash
  | .separator => d.separator
  | .reference => d.reference
  | .quote => d.quote

/-- No character plays two roles. -/
def Distinct (d : Delimiters) : Prop :=
  (Role.all.map d.char).Nodup

instance (d : Delimiters) : Decidable d.Distinct :=
  inferInstanceAs (Decidable (List.Nodup _))

theorem Distinct.char_inj
    {d : Delimiters} (h : d.Distinct)
    {r s : Role} (hrs : d.char r = d.char s) :
    r = s := by
  simp only [Distinct, Role.all, List.map, char, List.nodup_cons, List.mem_cons,
    List.not_mem_nil, or_false, not_or] at h
  cases r <;> cases s <;> simp_all [char]

end Delimiters

/-- The types that allow an offset and a back-reference unless a dialect says otherwise. -/
def standardNumericTypes : List String :=
  ["plural", "selectordinal"]

/-- The types that take sub-messages unless a dialect says otherwise. -/
def standardBranchingTypes : List String :=
  ["plural", "selectordinal", "select"]

/-- How messages are spelled. -/
structure Dialect extends Delimiters where
  offsetKeyword : String := "offset:"
  numericTypes : List String := standardNumericTypes
  branchingTypes : List String := standardBranchingTypes
  tagsAllowed : Bool := true
  distinct : toDelimiters.Distinct := by decide
  keyword_ne_empty : offsetKeyword ≠ "" := by decide
  numericTypes_ne_empty : "" ∉ numericTypes := by decide
  branchingTypes_ne_empty : "" ∉ branchingTypes := by decide
deriving DecidableEq

/-- The selector that every list of sub-messages must define. -/
def requiredSelector : String :=
  "other"

/-- The type of the number that a back-reference stands for. -/
def referenceType : String :=
  "number"

namespace Dialect

/-- The dialect of the message format standard. -/
def standard : Dialect where

instance : Inhabited Dialect where
  default := standard

/-- Whether sub-messages of this type may refer back to the number, and an offset is allowed. -/
def isNumeric (d : Dialect) (type : String) : Bool :=
  d.numericTypes.contains type

/-- Whether placeholders of this type take sub-messages. -/
def isBranching (d : Dialect) (type : String) : Bool :=
  d.branchingTypes.contains type

/-- The role that a character plays, if it plays one. -/
def roleOf (d : Dialect) (c : Char) : Option Role :=
  Role.all.find? (d.char · == c)

theorem char_inj
    (d : Dialect)
    {r s : Role} (h : d.char r = d.char s) :
    r = s :=
  d.distinct.char_inj h

/-- Different roles are played by different characters. -/
theorem char_ne
    (d : Dialect) (r s : Role) (h : r ≠ s := by decide) :
    d.char r ≠ d.char s :=
  fun hrs => h (d.char_inj hrs)

end Dialect

end MessageFormat
