import MessageFormat.Offset
import MessageFormat.Text.Literal
import MessageFormat.Value

/-!
# Values as text

The literal of a value, in which strings are quoted and the parts of lists, dictionaries and
message nodes are shown in turn, and its display text, which is the same except that a string is
shown without quotes.

Numbers with more than `maxDigits` digits are not shown, so a value that holds one has neither
(`Value.literal?`, `Value.display?`).
-/

namespace MessageFormat.Value

/-- Texts separated by commas. -/
def commaSeparated (texts : List String) : String :=
  String.intercalate ", " texts

mutual

/-- A value as a literal. -/
def literal : Value → String
  | .null => "None"
  | .bool true => "True"
  | .bool false => "False"
  | .int n => decimal n
  | .float text => text
  | .str s => stringLiteral s
  | .bytes bs => bytesLiteral bs
  | .list items => "[" ++ commaSeparated (literals items) ++ "]"
  | .tuple [v] => "(" ++ literal v ++ ",)"
  | .tuple items => "(" ++ commaSeparated (literals items) ++ ")"
  | .dict entries => "\x7b" ++ commaSeparated (entryLiterals entries) ++ "\x7d"
  | .placeholder id type format none =>
      "Variable(id=" ++ literal id ++ ", type=" ++ literal type ++ ", format=" ++
        literal format ++ ", options=None)"
  | .placeholder id type format (some entries) =>
      "Variable(id=" ++ literal id ++ ", type=" ++ literal type ++ ", format=" ++
        literal format ++ ", options=\x7b" ++ commaSeparated (entryLiterals entries) ++ "\x7d)"
  | .reference id => "NumericReference(id=" ++ literal id ++ ")"
  | .tag name children =>
      "Tag(name=" ++ literal name ++ ", children=" ++ literal children ++ ")"

/-- The literal of each value of a list. -/
def literals : List Value → List String
  | [] => []
  | v :: rest => literal v :: literals rest

/-- The literal of each entry of a dictionary. -/
def entryLiterals : List (Value × Value) → List String
  | [] => []
  | (key, v) :: rest => (literal key ++ ": " ++ literal v) :: entryLiterals rest

end

/-- A value as display text. -/
def display : Value → String
  | .str s => s
  | v => v.literal

mutual

/-- Whether no number in a value has too many digits to be shown. -/
def isShowable : Value → Bool
  | .int n => n.natAbs < leastOver maxDigits
  | .list items => areShowable items
  | .tuple items => areShowable items
  | .dict entries => entriesShowable entries
  | .placeholder id type format none => isShowable id && isShowable type && isShowable format
  | .placeholder id type format (some entries) =>
      isShowable id && isShowable type && isShowable format && entriesShowable entries
  | .reference id => isShowable id
  | .tag name children => isShowable name && isShowable children
  | _ => true

/-- Whether every value of a list can be shown. -/
def areShowable : List Value → Bool
  | [] => true
  | v :: rest => isShowable v && areShowable rest

/-- Whether every entry of a dictionary can be shown. -/
def entriesShowable : List (Value × Value) → Bool
  | [] => true
  | (key, v) :: rest => isShowable key && isShowable v && entriesShowable rest

end

/-- The literal of a value, if it can be shown. -/
def literal? (v : Value) : Option String :=
  if v.isShowable then some v.literal else none

/-- The display text of a value, if it can be shown. -/
def display? (v : Value) : Option String :=
  if v.isShowable then some v.display else none

end MessageFormat.Value
