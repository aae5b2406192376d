import MessageFormat.Message

/-!
# Loosely typed values

Callers hand over settings, catalogue data and hand-built messages as values of no fixed type:
null, truth values, numbers, strings, byte strings, lists, tuples, dictionaries in the order of
their entries, and message nodes whose fields are such values again. A `Message` embeds into the
values (`Node.toValue`), and a value that has the shape of a message is read back as one
(`Value.toMessage?`).

A value that is used in a way its type does not allow is a `Misuse`.
-/

namespace MessageFormat

/-- A value of no fixed type. -/
inductive Value where
  | null
  | bool (value : Bool)
  | int (value : Int)
  /-- A binary floating point number, by its shortest decimal text. -/
  | float (text : String)
  | str (value : String)
  | bytes (value : List UInt8)
  | list (items : List Value)
  | tuple (items : List Value)
  | dict (entries : List (Value × Value))
  | placeholder (id type format : Value) (submessages : Option (List (Value × Value)))
  | reference (id : Value)
  | tag (name children : Value)
deriving Repr, Inhabited

/-- A use of a value that its type does not allow; types are given by name. -/
inductive Misuse where
  | notIterable (type : String)
  | notHashable (type : String)
  /-- Joining texts met an item that is no text. -/
  | notJoinable (index : Nat) (type : String)
  | notMapping (type : String)
  | notOrdered (left right : String)
  /-- An index lies before the start of a text. -/
  | indexOutOfRange
  | keywordNotText
  | unknownKeyword (name : String)
  /-- A keyword names the object that is being made. -/
  | repeatedArgument (name : String)
  /-- A keyword names a limit that is given already. -/
  | repeatedLimit (name : String)
  /-- A value that is no node cannot be turned into plain data. -/
  | notPlain (type : String)
  /-- A text stands where a message that was read from it should. -/
  | notRead
deriving DecidableEq, Repr

/-- What a misuse is reported as. -/
inductive Misuse.Kind where
  | type
  | attribute
  | index
deriving DecidableEq, Repr

/-- The kind of error that a misuse is. -/
def Misuse.kind : Misuse → Misuse.Kind
  | .notMapping _ => .attribute
  | .indexOutOfRange => .index
  | _ => .type

/-- The wording of a misuse. -/
def Misuse.message : Misuse → String
  | .notIterable type => s!"'{type}' object is not iterable"
  | .notHashable type => s!"unhashable type: '{type}'"
  | .notJoinable index type => s!"sequence item {index}: expected str instance, {type} found"
  | .notMapping type => s!"'{type}' object has no attribute 'items'"
  | .notOrdered left right =>
      s!"'<' not supported between instances of '{left}' and '{right}'"
  | .indexOutOfRange => "string index out of range"
  | .keywordNotText => "keywords must be strings"
  | .unknownKeyword name => s!"ParserOptions.__init__() got an unexpected keyword argument '{name}'"
  | .repeatedArgument name =>
      s!"ParserOptions.__init__() got multiple values for argument '{name}'"
  | .repeatedLimit name => s!"MessageParser() got multiple values for keyword argument '{name}'"
  | .notPlain type => s!"Cannot convert {type} to plain data"
  | .notRead => "Expected a parsed message, got str; call parse() first"

namespace Value

/-- The name of a value's type. -/
def typeName : Value → String
  | .null => "NoneType"
  | .bool _ => "bool"
  | .int _ => "int"
  | .float _ => "float"
  | .str _ => "str"
  | .bytes _ => "bytes"
  | .list _ => "list"
  | .tuple _ => "tuple"
  | .dict _ => "dict"
  | .placeholder .. => "Variable"
  | .reference _ => "NumericReference"
  | .tag .. => "Tag"

/-- Whether a value counts as false: null, zero, and everything empty. -/
def isVoid : Value → Bool
  | .null => true
  | .bool b => !b
  | .int n => n == 0
  | .float text => text == "0.0" || text == "-0.0"
  | .str s => s.isEmpty
  | .bytes bs => bs.isEmpty
  | .list items => items.isEmpty
  | .tuple items => items.isEmpty
  | .dict entries => entries.isEmpty
  | _ => false

/-- The items over which a value can be iterated: the characters of a string, the numbers of a
byte string, the keys of a dictionary. -/
def items : Value → Except Misuse (List Value)
  | .str s => .ok (s.toList.map fun c => .str c.toString)
  | .bytes bs => .ok (bs.map fun b => .int b.toNat)
  | .list items => .ok items
  | .tuple items => .ok items
  | .dict entries => .ok (entries.map (·.1))
  | v => .error (.notIterable v.typeName)

mutual

/-- The type for which a value cannot be the key of a dictionary, if there is one. -/
def unhashable? : Value → Option String
  | .list _ => some "list"
  | .dict _ => some "dict"
  | .tuple items => unhashableAmong? items
  | .placeholder id type format submessages =>
      unhashable? id <|> unhashable? type <|> unhashable? format <|>
        (if submessages.isSome then some "dict" else none)
  | .reference id => unhashable? id
  | .tag name children => unhashable? name <|> unhashable? children
  | _ => none

/-- The first of the types for which some item cannot be the key of a dictionary. -/
def unhashableAmong? : List Value → Option String
  | [] => none
  | v :: rest => unhashable? v <|> unhashableAmong? rest

end

end Value

/-- The format as a value. -/
def Format.toValue : Format → Value
  | .text s => .str s
  | .offset n => .int n

mutual

/-- A node as a value. -/
def Node.toValue : Node → Value
  | .text s => .str s
  | .placeholder id type format none =>
      .placeholder (.str id) (type.elim .null .str) (format.elim .null Format.toValue) none
  | .placeholder id type format (some subs) =>
      .placeholder (.str id) (type.elim .null .str) (format.elim .null Format.toValue)
        (some (Submessages.toEntries subs))
  | .reference id => .reference (.str id)
  | .tag name none => .tag (.str name) .null
  | .tag name (some children) => .tag (.str name) (.list (Message.toItems children))

/-- The nodes of a message as values. -/
def Message.toItems : List Node → List Value
  | [] => []
  | node :: rest => node.toValue :: Message.toItems rest

/-- Sub-messages as the entries of a dictionary. -/
def Submessages.toEntries : List (String × List Node) → List (Value × Value)
  | [] => []
  | (selector, body) :: rest =>
      (.str selector, .list (Message.toItems body)) :: Submessages.toEntries rest

end

/-- A message as a value. -/
def Message.toValue (m : Message) : Value :=
  .list (Message.toItems m)

namespace Value

/-- The optional string that a value is. -/
def toType? : Value → Option (Option String)
  | .null => some none
  | .str s => some (some s)
  | _ => none

/-- The optional format that a value is. -/
def toFormat? : Value → Option (Option Format)
  | .null => some none
  | .str s => some (some (.text s))
  | .int n => some (some (.offset n))
  | _ => none

mutual

/-- The node that a value is. -/
def toNode? : Value → Option Node
  | .str s => some (.text s)
  | .placeholder (.str id) type format none => do
      return .placeholder id (← type.toType?) (← format.toFormat?) none
  | .placeholder (.str id) type format (some entries) => do
      let type ← type.toType?
      let format ← format.toFormat?
      let subs ← toSubmessages? entries
      return .placeholder id type format (some subs)
  | .reference (.str id) => some (.reference id)
  | .tag (.str name) .null => some (.tag name none)
  | .tag (.str name) (.list items) => do
      let children ← toNodes? items
      return .tag name (some children)
  | _ => none

/-- The nodes that the items of a list are. -/
def toNodes? : List Value → Option (List Node)
  | [] => some []
  | v :: rest => do
      let node ← toNode? v
      let nodes ← toNodes? rest
      return node :: nodes

/-- The sub-messages that the entries of a dictionary are. -/
def toSubmessages? : List (Value × Value) → Option (List (String × List Node))
  | [] => some []
  | (.str selector, .list items) :: rest => do
      let body ← toNodes? items
      let subs ← toSubmessages? rest
      return (selector, body) :: subs
  | _ => none

end

/-- The message that a value is. -/
def toMessage? : Value → Option Message
  | .list items => toNodes? items
  | _ => none

theorem toType?_elim
    (type : Option String) :
    toType? (type.elim .null .str) = some type := by
  cases type <;> rfl

theorem toFormat?_elim
    (format : Option Format) :
    toFormat? (format.elim .null Format.toValue) = some format := by
  match format with
  | none => rfl
  | some (.text s) => rfl
  | some (.offset n) => rfl

mutual

theorem toNode?_toValue
    (node : Node) :
    toNode? node.toValue = some node := by
  match node with
  | .text s => rfl
  | .placeholder id type format none =>
      simp [Node.toValue, toNode?, toType?_elim, toFormat?_elim]
  | .placeholder id type format (some subs) =>
      simp [Node.toValue, toNode?, toType?_elim, toFormat?_elim, toSubmessages?_toEntries subs]
  | .reference id => rfl
  | .tag name none => rfl
  | .tag name (some children) =>
      simp [Node.toValue, toNode?, toNodes?_toItems children]

theorem toNodes?_toItems
    (m : List Node) :
    toNodes? (Message.toItems m) = some m := by
  match m with
  | [] => rfl
  | node :: rest =>
      simp [Message.toItems, toNodes?, toNode?_toValue node, toNodes?_toItems rest]

theorem toSubmessages?_toEntries
    (subs : List (String × List Node)) :
    toSubmessages? (Submessages.toEntries subs) = some subs := by
  match subs with
  | [] => rfl
  | (selector, body) :: rest =>
      simp [Submessages.toEntries, toSubmessages?, toNodes?_toItems body,
        toSubmessages?_toEntries rest]

end

/-- The value of a message is that message. -/
theorem toMessage?_toValue
    (m : Message) :
    toMessage? m.toValue = some m :=
  toNodes?_toItems m

theorem eq_of_toType?
    {v : Value} {type : Option String} (h : v.toType? = some type) :
    v = type.elim .null .str := by
  cases v <;> cases h <;> rfl

theorem eq_of_toFormat?
    {v : Value} {format : Option Format} (h : v.toFormat? = some format) :
    v = format.elim .null Format.toValue := by
  cases v <;> cases h <;> rfl

mutual

theorem eq_of_toNode?
    (v : Value) (node : Node) (h : toNode? v = some node) :
    v = node.toValue := by
  match v with
  | .str s =>
      cases h
      rfl
  | .placeholder (.str id) type format none =>
      simp only [toNode?, Option.bind_eq_bind, Option.bind_eq_some_iff, Option.pure_def,
        Option.some.injEq] at h
      obtain ⟨type', htype, format', hformat, rfl⟩ := h
      rw [Node.toValue, eq_of_toType? htype, eq_of_toFormat? hformat]
  | .placeholder (.str id) type format (some entries) =>
      simp only [toNode?, Option.bind_eq_bind, Option.bind_eq_some_iff, Option.pure_def,
        Option.some.injEq] at h
      obtain ⟨type', htype, format', hformat, subs, hsubs, rfl⟩ := h
      rw [Node.toValue, eq_of_toType? htype, eq_of_toFormat? hformat,
        eq_of_toSubmessages? entries subs hsubs]
  | .reference (.str id) =>
      cases h
      rfl
  | .tag (.str name) .null =>
      cases h
      rfl
  | .tag (.str name) (.list items) =>
      simp only [toNode?, Option.bind_eq_bind, Option.bind_eq_some_iff, Option.pure_def,
        Option.some.injEq] at h
      obtain ⟨children, hchildren, rfl⟩ := h
      rw [Node.toValue, eq_of_toNodes? items children hchildren]

theorem eq_of_toNodes?
    (items : List Value) (m : List Node) (h : toNodes? items = some m) :
    items = Message.toItems m := by
  match items with
  | [] =>
      cases h
      rfl
  | v :: rest =>
      simp only [toNodes?, Option.bind_eq_bind, Option.bind_eq_some_iff, Option.pure_def,
        Option.some.injEq] at h
      obtain ⟨node, hnode, nodes, hnodes, rfl⟩ := h
      rw [Message.toItems, eq_of_toNode? v node hnode, eq_of_toNodes? rest nodes hnodes]

theorem eq_of_toSubmessages?
    (entries : List (Value × Value)) (subs : List (String × List Node))
    (h : toSubmessages? entries = some subs) :
    entries = Submessages.toEntries subs := by
  match entries with
  | [] =>
      cases h
      rfl
  | (.str selector, .list items) :: rest =>
      simp only [toSubmessages?, Option.bind_eq_bind, Option.bind_eq_some_iff, Option.pure_def,
        Option.some.injEq] at h
      obtain ⟨body, hbody, others, hothers, rfl⟩ := h
      rw [Submessages.toEntries, eq_of_toNodes? items body hbody,
        eq_of_toSubmessages? rest others hothers]

end

/-- The values that are messages are the values of messages. -/
theorem toMessage?_eq_some_iff
    {v : Value} {m : Message} :
    v.toMessage? = some m ↔ v = m.toValue := by
  constructor
  · intro h
    match v with
    | .list items => exact congrArg Value.list (eq_of_toNodes? items m h)
  · rintro rfl
    exact toMessage?_toValue m

end Value

end MessageFormat
