import MessageFormat.Message.Layout

/-!
# Messages as text

Writes a message so that reading it in the same dialect gives the message back. A body is written
with its `owner`, the id of the placeholder whose number a reference sign stands for there; outside
of such a body the sign is ordinary text and references cannot be written.
-/

namespace MessageFormat

namespace Dialect

/-- How text is quoted in a body of this owner. -/
def modeOf (owner : Option String) : Mode :=
  if owner.isSome then
    .numericBody
  else
    .body

/-- The id that references in the sub-messages of a placeholder may have. -/
def ownerOf (d : Dialect) (id type : String) : Option String :=
  if d.isNumeric type then
    some id
  else
    none

/-- Writes the type of a placeholder. -/
def typePart (d : Dialect) (type : String) : TypePart where
  shown := some type
  text := d.writeToken .placeholderType type
  isBranching := d.isBranching type
  isNumeric := d.isNumeric type

/-- Writes the format of a placeholder. -/
def formatPart : Option Format → FormatPart
  | none => .absent
  | some (.text s) => .text (.ok s)
  | some (.offset n) => .offset (writeNumber n)

/-- Writes a reference sign. -/
def writeReference (d : Dialect) (owner : Option String) (id : String) : Written :=
  if owner = some id then
    .ok d.reference.toString
  else
    unwritable (.strayReference id)

mutual

/-- Writes a node. -/
def writeNode (d : Dialect) (g : Guard) (owner : Option String) : Node → Written
  | .text s => .ok (d.spell (modeOf owner) s)
  | .reference id => d.writeReference owner id
  | .placeholder id type format none =>
      d.layoutPlaceholder {
        shownId := some id
        id := d.writeToken .placeholderId id
        type := type.map d.typePart
        format := formatPart format
        submessages := none }
  | .placeholder id type format (some subs) =>
      d.layoutPlaceholder {
        shownId := some id
        id := d.writeToken .placeholderId id
        type := type.map d.typePart
        format := formatPart format
        submessages := some {
          complete := Submessages.isComplete subs requiredSelector
          text := (writeSubmessages d g (type.bind (d.ownerOf id)) subs).map
            (String.intercalate " ") } }
  | .tag name none => d.layoutTag ⟨some name, d.writeToken .tagName name, none⟩
  | .tag name (some []) => d.layoutTag ⟨some name, d.writeToken .tagName name, none⟩
  | .tag name (some (node :: rest)) =>
      d.layoutTag ⟨some name, d.writeToken .tagName name, some (do
        let inner ← g.enterBody
        let first ← writeNode d inner none node
        let others ← writeNodes d inner none rest
        return first ++ others)⟩

/-- Writes the nodes of a body. -/
def writeNodes (d : Dialect) (g : Guard) (owner : Option String) : List Node → Written
  | [] => .ok ""
  | node :: rest => do
      let first ← writeNode d g owner node
      let others ← writeNodes d g owner rest
      return first ++ others

/-- Writes each sub-message with its selector. -/
def writeSubmessages (d : Dialect) (g : Guard) (owner : Option String) :
    List (String × List Node) → Except WriteFault (List String)
  | [] => .ok []
  | (selector, body) :: rest => do
      let first ← d.layoutSubmessage (d.writeToken .selector selector) (do
        let inner ← g.enterBody
        writeNodes d inner owner body)
      let others ← writeSubmessages d g owner rest
      return first :: others

end

/-- Writes a message within a nesting limit. -/
def serialize (d : Dialect) (limit : Int) (m : Message) : Written :=
  d.writeNodes { limit := limit } none m

end Dialect

end MessageFormat
