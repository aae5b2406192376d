import MessageFormat.Depth
import MessageFormat.Message
import MessageFormat.Offset
import MessageFormat.Quoted

/-!
# The layout of written messages

How placeholders and tags are put together from parts that are written already, and what cannot
be written. A part is a text or the fault that writing it met. Parts are looked at in the order in
which they appear in the text, so the first fault counts.
-/

namespace MessageFormat

/-- A token that must not be empty. -/
inductive TokenKind where
  | placeholderId
  | placeholderType
  | selector
  | tagName
deriving DecidableEq, Repr

/-- The name of a token kind. -/
def TokenKind.label : TokenKind → String
  | .placeholderId => "placeholder id"
  | .placeholderType => "placeholder type"
  | .selector => "selector"
  | .tagName => "tag name"

/-- Why a message cannot be expressed as text. -/
inductive Unwritable where
  | emptyToken (kind : TokenKind)
  /-- A reference stands outside of the sub-messages of its placeholder. -/
  | strayReference (id : String)
  /-- A value is no node. -/
  | unsupported (valueLiteral : String)
  /-- A placeholder has a format or sub-messages but no type. -/
  | formatWithoutType (id : String)
  /-- A type takes no sub-messages but there are some. -/
  | superfluousSubmessages (type id : String)
  | emptyFormat (id : String)
  | missingSubmessage (id : String)
  | formatNotOffset (id : String)
  | tagsNotAllowed (name : String)
deriving DecidableEq, Repr

/-- The wording of a reason. -/
def Unwritable.reason : Unwritable → String
  | .emptyToken kind => s!"empty {kind.label}"
  | .strayReference id => s!"numeric reference to '{id}' outside its plural-like placeholder"
  | .unsupported valueLiteral => s!"unsupported node {valueLiteral}"
  | .formatWithoutType id => s!"placeholder '{id}' has a format but no type"
  | .superfluousSubmessages type id =>
      s!"type '{type}' of placeholder '{id}' does not take sub-messages"
  | .emptyFormat id => s!"empty format for placeholder '{id}'"
  | .missingSubmessage id => s!"placeholder '{id}' has no '{requiredSelector}' sub-message"
  | .formatNotOffset id => s!"format of placeholder '{id}' must be an offset"
  | .tagsNotAllowed name => s!"tag '{name}' while tags are disabled"

/-- Why writing stopped. -/
inductive WriteFault where
  | unwritable (reason : Unwritable)
  | tooDeep (limit : Int)
  /-- A number has more digits than any number may have, in the text or in the reason why there is
  none. -/
  | tooManyDigits
  | misuse (misuse : Misuse)
deriving DecidableEq, Repr

/-- What is told about a message that is not written. -/
def WriteFault.toFault : WriteFault → Fault
  | .unwritable u => .reported (Report.ofDiagnostic .unwritable (Diagnostic.unwritable u.reason))
  | .tooDeep limit => .reported (Report.tooDeep limit)
  | .tooManyDigits => .invalidValue overlongMessage
  | .misuse m => .misuse m

/-- A part of a message as text, or the fault that writing it met. -/
abbrev Written := Except WriteFault String

/-- Fails for a reason. -/
def unwritable {α : Type} (reason : Unwritable) : Except WriteFault α :=
  .error (.unwritable reason)

/-- Fails for a reason, unless the reason shows a value that cannot be shown. -/
def refuse {α : Type} (reason : Option Unwritable) : Except WriteFault α :=
  reason.elim (.error .tooManyDigits) unwritable

/-- Enters a nested body. -/
def Guard.enterBody (g : Guard) : Except WriteFault Guard :=
  g.enter.mapError fun full => .tooDeep full.limit

/-- The digits of a number, if there are not too many. -/
def writeNumber (n : Int) : Written :=
  if n.natAbs < leastOver maxDigits then
    .ok (decimal n)
  else
    .error .tooManyDigits

/-- The format of a placeholder. -/
inductive FormatPart where
  | absent
  | offset (text : Written)
  | text (text : Written)

/-- The sub-messages of a placeholder. -/
structure SubmessagesPart where
  /-- Whether the required selector is there. -/
  complete : Bool
  text : Written

/-- The type of a placeholder. -/
structure TypePart where
  /-- How the type is shown in reasons, if it can be. -/
  shown : Option String
  text : Written
  isBranching : Bool
  isNumeric : Bool

/-- The parts of a placeholder. -/
structure PlaceholderParts where
  /-- How the id is shown in reasons, if it can be. -/
  shownId : Option String
  id : Written
  type : Option TypePart
  format : FormatPart
  submessages : Option SubmessagesPart

/-- The parts of a tag. -/
structure TagParts where
  /-- How the name is shown in reasons, if it can be. -/
  shownName : Option String
  name : Written
  /-- The content, unless there is none. -/
  children : Option Written

namespace Dialect

/-- Writes a token in the header of a placeholder, in front of a sub-message or in a tag. -/
def writeToken (d : Dialect) (kind : TokenKind) (token : String) : Written :=
  if token.isEmpty then
    unwritable (.emptyToken kind)
  else
    .ok (d.spell (if kind = .tagName then .tagName else .word) token)

/-- Writes the offset in front of sub-messages. -/
def layoutOffset (d : Dialect) (shownId : Option String) (isNumeric : Bool) :
    FormatPart → Written
  | .absent => .ok ""
  | .offset text =>
      if isNumeric then
        text.map fun number => d.offsetKeyword ++ number ++ " "
      else
        refuse (shownId.map .formatNotOffset)
  | .text _ => refuse (shownId.map .formatNotOffset)

/-- Writes what follows the type of a placeholder whose type takes sub-messages. -/
def layoutBranching (d : Dialect) (p : PlaceholderParts) (isNumeric : Bool) : Written :=
  match p.submessages with
  | some ⟨true, text⟩ => do
      let offset ← d.layoutOffset p.shownId isNumeric p.format
      let submessages ← text
      return d.separator.toString ++ " " ++ offset ++ submessages
  | _ => refuse (p.shownId.map .missingSubmessage)

/-- Writes what follows the type of a placeholder whose type takes no sub-messages. -/
def layoutPlain (d : Dialect) (p : PlaceholderParts) (shownType : Option String) : Written :=
  if p.submessages.isSome then
    refuse (shownType.bind fun type => p.shownId.map (.superfluousSubmessages type))
  else
    match p.format with
    | .absent => .ok ""
    | .offset text | .text text => do
        let format ← text
        if format.toList.all isBlank then
          refuse (p.shownId.map .emptyFormat)
        else
          return d.separator.toString ++ " " ++ d.spell .body format

/-- Writes a placeholder. -/
def layoutPlaceholder (d : Dialect) (p : PlaceholderParts) : Written := do
  let id ← p.id
  match p.type with
  | none =>
      match p.format, p.submessages with
      | .absent, none => return d.opener.toString ++ id ++ d.closer.toString
      | _, _ => refuse (p.shownId.map .formatWithoutType)
  | some t =>
      let type ← t.text
      let tail ←
        if t.isBranching then
          d.layoutBranching p t.isNumeric
        else
          d.layoutPlain p t.shown
      return d.opener.toString ++ id ++ d.separator.toString ++ " " ++ type ++ tail ++
        d.closer.toString

/-- Writes a sub-message with its selector. -/
def layoutSubmessage (d : Dialect) (selector body : Written) : Written := do
  let selector ← selector
  let body ← body
  return selector ++ " " ++ d.opener.toString ++ body ++ d.closer.toString

/-- Writes a tag. -/
def layoutTag (d : Dialect) (p : TagParts) : Written :=
  if d.tagsAllowed then do
    let name ← p.name
    match p.children with
    | none =>
        return d.tagOpener.toString ++ name ++ d.tagSlash.toString ++ d.tagCloser.toString
    | some children =>
        let body ← children
        return d.tagOpener.toString ++ name ++ d.tagCloser.toString ++ body ++
          d.tagOpener.toString ++ d.tagSlash.toString ++ name ++ d.tagCloser.toString
  else
    refuse (p.shownName.map .tagsNotAllowed)

end Dialect

end MessageFormat
