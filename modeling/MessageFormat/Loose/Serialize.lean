import MessageFormat.Dialect.Settings
import MessageFormat.Message.Serialize
import MessageFormat.Value.Order

/-!
# Hand-built trees as text

A tree that is handed over as a value may be a message, and is then written as one. Otherwise it
is written by the same layout as far as its parts allow: a body may be anything that can be
iterated, and a token anything whose items are characters. The first part that cannot be used
ends the writing.
-/

namespace MessageFormat

namespace Dialect

/-- The run of marks and quotes that is open, as an item of the written text. -/
def closeRun (d : Dialect) (live : Bool) (run : List Char) : List Value :=
  if run.isEmpty then
    []
  else
    [.str (String.ofList (Quoted.spellRun d.quote live run))]

/-- The single character that an item is. -/
def itemChar? : Value → Option Char
  | .str s =>
      match s.toList with
      | [c] => some c
      | _ => none
  | _ => none

/-- Quotes the items of a token, as `Quoted.spellFrom` quotes characters. Whether an item is a mark
is looked up in a set, so it has to be hashable. -/
def spellItems (d : Dialect) (m : Mode) :
    Bool → List Char → List Value → Except Misuse (List Value)
  | live, run, [] => .ok (d.closeRun live run)
  | live, run, item :: rest =>
      match itemChar? item with
      | some c =>
          if c = d.quote then
            spellItems d m live (run ++ [c]) rest
          else if d.stops m c then
            spellItems d m true (run ++ [c]) rest
          else do
            let others ← spellItems d m false [] rest
            return d.closeRun live run ++ item :: others
      | none =>
          match item.unhashable? with
          | some type => .error (.notHashable type)
          | none => do
              let others ← spellItems d m false [] rest
              return d.closeRun live run ++ item :: others

/-- Writes a token that may be no string. -/
def writeTokenValue (d : Dialect) (kind : TokenKind) (token : Value) : Written :=
  match token with
  | .str s => d.writeToken kind s
  | v =>
      if v.isVoid then
        unwritable (.emptyToken kind)
      else
        Except.mapError .misuse do
          let items ← v.items
          let parts ← d.spellItems (if kind = .tagName then .tagName else .word) false [] items
          Value.joined "" parts

/-- The format that a value is. -/
def formatPartOf : Value → FormatPart
  | .null => .absent
  | .int n => .offset (writeNumber n)
  | .bool b => .offset (.ok (Value.bool b).literal)
  | v => .text (v.display?.elim (.error .tooManyDigits) .ok)

/-- The type that a value is. -/
def typePartOf (d : Dialect) : Value → Option TypePart
  | .null => none
  | type => some {
      shown := type.display?
      text := d.writeTokenValue .placeholderType type
      isBranching := d.isBranchingValue type
      isNumeric := d.isNumericValue type }

/-- How text is quoted in a body whose owner has this id. -/
def modeOfOwner (owner : Option Value) : Mode :=
  if owner.isSome then
    .numericBody
  else
    .body

mutual

/-- Writes a value as a node. -/
def writeValue (d : Dialect) (g : Guard) (owner : Option Value) : Value → Written
  | .str s => .ok (d.spell (modeOfOwner owner) s)
  | .reference id =>
      if owner.any id.same then
        .ok d.reference.toString
      else
        refuse (id.display?.map .strayReference)
  | .placeholder id type format none =>
      d.layoutPlaceholder {
        shownId := id.display?
        id := d.writeTokenValue .placeholderId id
        type := d.typePartOf type
        format := formatPartOf format
        submessages := none }
  | .placeholder id type format (some entries) =>
      d.layoutPlaceholder {
        shownId := id.display?
        id := d.writeTokenValue .placeholderId id
        type := d.typePartOf type
        format := formatPartOf format
        submessages := some {
          complete := (Value.field entries requiredSelector).isSome
          text :=
            (writeEntries d g (if d.isNumericValue type then some id else none) entries).map
              (String.intercalate " ") } }
  | .tag name children =>
      d.layoutTag {
        shownName := name.display?
        name := d.writeTokenValue .tagName name
        children :=
          if children.isVoid then
            none
          else
            some (do
              let inner ← g.enterBody
              writeBodyValue d inner none children) }
  | v => refuse (v.literal?.map .unsupported)

/-- Writes a value as a body. -/
def writeBodyValue (d : Dialect) (g : Guard) (owner : Option Value) : Value → Written
  | .list items => writeItems d g owner items
  | .tuple items => writeItems d g owner items
  | .dict entries => writeKeys d g owner entries
  | .str s => .ok (String.join (s.toList.map fun c => d.spell (modeOfOwner owner) c.toString))
  | .bytes [] => .ok ""
  | .bytes (b :: _) => unwritable (.unsupported (decimal b.toNat))
  | v => .error (.misuse (.notIterable v.typeName))

/-- Writes the items of a body. -/
def writeItems (d : Dialect) (g : Guard) (owner : Option Value) : List Value → Written
  | [] => .ok ""
  | v :: rest => do
      let first ← writeValue d g owner v
      let others ← writeItems d g owner rest
      return first ++ others

/-- Writes the keys of a dictionary, which are the items of it as a body. -/
def writeKeys (d : Dialect) (g : Guard) (owner : Option Value) :
    List (Value × Value) → Written
  | [] => .ok ""
  | (key, _) :: rest => do
      let first ← writeValue d g owner key
      let others ← writeKeys d g owner rest
      return first ++ others

/-- Writes each sub-message with its selector. -/
def writeEntries (d : Dialect) (g : Guard) (owner : Option Value) :
    List (Value × Value) → Except WriteFault (List String)
  | [] => .ok []
  | (selector, body) :: rest => do
      let first ← d.layoutSubmessage (d.writeTokenValue .selector selector) (do
        let inner ← g.enterBody
        writeBodyValue d inner owner body)
      let others ← writeEntries d g owner rest
      return first :: others

end

/-- Writes a value as a message within a nesting limit. -/
def serializeValue (d : Dialect) (limit : Int) (v : Value) : Written :=
  match v.toMessage? with
  | some m => d.serialize limit m
  | none => d.writeBodyValue { limit := limit } none v

/-- Writes a value as a message, on a stack of so many frames. -/
def serializeOnStack (d : Dialect) (frames : Int) (v : Value) : Logged String := do
  let limit ← clampDepthLogged frames standardReserve standardDepth
  Logged.of ((d.serializeValue limit v).mapError WriteFault.toFault)

end Dialect

end MessageFormat
