import MessageFormat.Dialect
import MessageFormat.Report
import MessageFormat.Value.Literal

/-!
# Drafts of dialects

A draft assigns a value of no fixed type to each setting. It becomes a dialect if every delimiter
is a single character, no two delimiters are the same character, the offset keyword is a non-empty
string, and both type lists hold non-empty strings only.

The delimiters are checked role by role; a role is at fault if its value is not a single character
or is the character of an earlier role. Then come the keyword and the two type lists.
-/

namespace MessageFormat

/-- A setting of a dialect. -/
inductive Field where
  | delimiter (role : Role)
  | offsetKeyword
  | numericTypes
  | branchingTypes
  | tagsAllowed
deriving DecidableEq, Repr

namespace Field

/-- Every setting. -/
def all : List Field :=
  Role.all.map delimiter ++ [offsetKeyword, numericTypes, branchingTypes, tagsAllowed]

/-- The name of a setting. -/
def name : Field → String
  | delimiter .opener => "open"
  | delimiter .closer => "close"
  | delimiter .tagOpener => "tag_open"
  | delimiter .tagCloser => "tag_close"
  | delimiter .tagSlash => "tag_closing"
  | delimiter .separator => "sep"
  | delimiter .reference => "sub_var"
  | delimiter .quote => "escape"
  | offsetKeyword => "offset"
  | numericTypes => "subnumeric_types"
  | branchingTypes => "submessage_types"
  | tagsAllowed => "allow_tags"

/-- The other name of a setting, which configurations have used for longer. -/
def oldName : Field → String
  | delimiter role => role.label
  | offsetKeyword => "OFFSET"
  | numericTypes => "subnumeric_types"
  | branchingTypes => "submessage_types"
  | tagsAllowed => "allowTags"

/-- The setting of a name, old or new. -/
def ofName? (name : String) : Option Field :=
  all.find? fun field => field.name == name || field.oldName == name

/-- The setting of a new name. -/
def ofKeyword? (name : String) : Option Field :=
  all.find? fun field => field.name == name

end Field

/-- A value for each setting. -/
abbrev Draft := Field → Value

/-- Why a draft is no dialect. -/
inductive Dialect.Fault where
  | notOneCharacter (role : Role)
  | conflict (first second : Role)
  | badKeyword
  /-- A type list is a string. -/
  | typesAreText (field : Field)
  /-- A type list holds something else than non-empty strings. -/
  | typesAreNotNames (field : Field)
  | misuse (misuse : Misuse)
deriving DecidableEq, Repr

/-- What is told about a draft that is no dialect. -/
def Dialect.Fault.toFault : Dialect.Fault → MessageFormat.Fault
  | .notOneCharacter role => report (.optionLength role.label)
  | .conflict first second => report (.optionConflict first.label second.label)
  | .badKeyword => report (.optionValue "OFFSET" "must be a non-empty string")
  | .typesAreText field => report (.optionValue field.name "must be a list of type names")
  | .typesAreNotNames field =>
      report (.optionValue field.name "must only contain non-empty strings")
  | .misuse m => .misuse m
where
  report (d : Diagnostic) : MessageFormat.Fault :=
    .reported (Report.ofDiagnostic .configuration d)

namespace Draft

/-- A draft with another value for one setting. -/
def set (draft : Draft) (field : Field) (v : Value) : Draft :=
  fun field' => if field' = field then v else draft field'

/-- The character of a role, if its value is one. -/
def character? (draft : Draft) (role : Role) : Option Char :=
  match draft (.delimiter role) with
  | .str s =>
      match s.toList with
      | [c] => some c
      | _ => none
  | _ => none

/-- What is wrong with the value of a role, seen from the earlier roles. -/
def roleFault? (draft : Draft) (role : Role) : Option Dialect.Fault :=
  match draft.character? role with
  | none => some (.notOneCharacter role)
  | some c =>
      (role.earlier.find? (draft.character? · == some c)).map (.conflict · role)

/-- What is wrong with the delimiters. -/
def delimiterFault? (draft : Draft) : Option Dialect.Fault :=
  Role.all.findSome? draft.roleFault?

theorem roleFault?_eq_none
    {draft : Draft} (h : draft.delimiterFault? = none)
    (role : Role) :
    draft.roleFault? role = none := by
  rw [delimiterFault?, List.findSome?_eq_none_iff] at h
  exact h role role.mem_all

theorem character?_isSome
    {draft : Draft} (h : draft.delimiterFault? = none)
    (role : Role) :
    (draft.character? role).isSome = true := by
  have hrole := roleFault?_eq_none h role
  unfold roleFault? at hrole
  cases hc : draft.character? role with
  | none =>
      simp [hc] at hrole
  | some c =>
      rfl

/-- The delimiters of a draft in which they are not at fault. -/
def delimiters (draft : Draft) (h : draft.delimiterFault? = none) : Delimiters where
  opener := (draft.character? .opener).get (character?_isSome h .opener)
  closer := (draft.character? .closer).get (character?_isSome h .closer)
  tagOpener := (draft.character? .tagOpener).get (character?_isSome h .tagOpener)
  tagCloser := (draft.character? .tagCloser).get (character?_isSome h .tagCloser)
  tagSlash := (draft.character? .tagSlash).get (character?_isSome h .tagSlash)
  separator := (draft.character? .separator).get (character?_isSome h .separator)
  reference := (draft.character? .reference).get (character?_isSome h .reference)
  quote := (draft.character? .quote).get (character?_isSome h .quote)

theorem char_delimiters
    {draft : Draft} (h : draft.delimiterFault? = none)
    (role : Role) :
    draft.character? role = some ((draft.delimiters h).char role) := by
  cases role <;> simp [delimiters, Delimiters.char]

theorem character?_ne_of_earlier
    {draft : Draft} (h : draft.delimiterFault? = none)
    {role other : Role} (hother : other ∈ role.earlier) :
    draft.character? other ≠ draft.character? role := by
  have hrole := roleFault?_eq_none h role
  have hsome := char_delimiters h role
  simp only [roleFault?, hsome, Option.map_eq_none_iff, List.find?_eq_none] at hrole
  have hne := hrole other hother
  rw [hsome]
  simpa using hne

theorem distinct_delimiters
    {draft : Draft} (h : draft.delimiterFault? = none) :
    (draft.delimiters h).Distinct := by
  have hne (role other : Role) (hother : other ∈ role.earlier) :
      (draft.delimiters h).char other ≠ (draft.delimiters h).char role := by
    intro heq
    apply character?_ne_of_earlier h hother
    rw [char_delimiters h other, char_delimiters h role, heq]
  have hpairs : Role.all.Pairwise fun other role => other ∈ role.earlier := by
    decide
  exact List.pairwise_map.2 (hpairs.imp fun hother => hne _ _ hother)

/-- The names that the items of a type list are, if they are non-empty strings. -/
def names? : List Value → Option { names : List String // "" ∉ names }
  | [] => some ⟨[], List.not_mem_nil⟩
  | .str name :: rest =>
      if hname : name = "" then
        none
      else
        (names? rest).map fun ⟨names, hnames⟩ => ⟨name :: names, by
          simpa [eq_comm, hname] using hnames⟩
  | _ => none

/-- The names of a type list. -/
def typeNames (draft : Draft) (field : Field) :
    Except Dialect.Fault { names : List String // "" ∉ names } :=
  match draft field with
  | .str _ => .error (.typesAreText field)
  | v =>
      match v.items with
      | .error m => .error (.misuse m)
      | .ok items =>
          match names? items with
          | none => .error (.typesAreNotNames field)
          | some names => .ok names

/-- The dialect of a draft. -/
def check (draft : Draft) : Except Dialect.Fault Dialect :=
  match hfault : draft.delimiterFault? with
  | some fault => .error fault
  | none =>
      match draft .offsetKeyword with
      | .str keyword =>
          if hkeyword : keyword = "" then
            .error .badKeyword
          else
            match draft.typeNames .numericTypes with
            | .error fault => .error fault
            | .ok numeric =>
                match draft.typeNames .branchingTypes with
                | .error fault => .error fault
                | .ok branching =>
                    .ok {
                      toDelimiters := draft.delimiters hfault
                      offsetKeyword := keyword
                      numericTypes := numeric.val
                      branchingTypes := branching.val
                      tagsAllowed := !(draft .tagsAllowed).isVoid
                      distinct := distinct_delimiters hfault
                      keyword_ne_empty := hkeyword
                      numericTypes_ne_empty := numeric.property
                      branchingTypes_ne_empty := branching.property
                    }
      | _ => .error .badKeyword

end Draft

/-- The settings of a dialect. -/
def Dialect.toDraft (d : Dialect) : Draft
  | .delimiter role => .str (d.char role).toString
  | .offsetKeyword => .str d.offsetKeyword
  | .numericTypes => .tuple (d.numericTypes.map .str)
  | .branchingTypes => .tuple (d.branchingTypes.map .str)
  | .tagsAllowed => .bool d.tagsAllowed

/-- The settings of a dialect as text. -/
def Dialect.describe (d : Dialect) : String :=
  "ParserOptions(" ++
    Value.commaSeparated
      (Field.all.map fun field => field.name ++ "=" ++ (d.toDraft field).literal) ++
    ")"

end MessageFormat
