import MessageFormat.Message.Plain

/-!
# Hand-built trees as plain data

A tree that is handed over as a value may be a message, and is then turned into plain data as one.
Otherwise its fields are taken over as they are, and a body may be anything that can be iterated
over nodes.
-/

namespace MessageFormat.Plain

mutual

/-- A value as the plain data of a node. -/
def ofValue (g : Guard) : Value → Except PlainFault Value
  | .str s => .ok (.str s)
  | .placeholder id type format none => .ok (placeholder id type format none)
  | .placeholder id type format (some entries) => do
      let options ← ofEntries g entries
      return placeholder id type format (some (.dict options))
  | .reference id => .ok (reference id)
  | .tag name .null => .ok (tag name none)
  | .tag name children => do
      let inner ← g.enterPlain
      let items ← ofBody inner children
      return tag name (some (.list items))
  | v => .error (.misuse (.notPlain v.typeName))

/-- A value as the plain data of a body. -/
def ofBody (g : Guard) : Value → Except PlainFault (List Value)
  | .list items => ofItems g items
  | .tuple items => ofItems g items
  | .dict entries => ofKeys g entries
  | .str s => .ok (s.toList.map fun c => .str c.toString)
  | .bytes [] => .ok []
  | .bytes (_ :: _) => .error (.misuse (.notPlain (Value.int 0).typeName))
  | v => .error (.misuse (.notIterable v.typeName))

/-- The items of a body as plain data. -/
def ofItems (g : Guard) : List Value → Except PlainFault (List Value)
  | [] => .ok []
  | v :: rest => do
      let first ← ofValue g v
      let others ← ofItems g rest
      return first :: others

/-- The keys of a dictionary, which are the items of it as a body, as plain data. -/
def ofKeys (g : Guard) : List (Value × Value) → Except PlainFault (List Value)
  | [] => .ok []
  | (key, _) :: rest => do
      let first ← ofValue g key
      let others ← ofKeys g rest
      return first :: others

/-- Sub-messages as plain data. -/
def ofEntries (g : Guard) : List (Value × Value) → Except PlainFault (List (Value × Value))
  | [] => .ok []
  | (selector, body) :: rest => do
      let inner ← g.enterPlain
      let items ← ofBody inner body
      let others ← ofEntries g rest
      return (selector, .list items) :: others

end

/-- A value as the plain data of a message, within a nesting limit. -/
def ofAnything (limit : Int) (v : Value) : Except PlainFault Value :=
  match v.toMessage? with
  | some m => ofMessage limit m
  | none => (ofBody { limit := limit } v).map .list

/-- A value as the plain data of a message, on a stack of so many frames. -/
def ofAnythingOnStack (frames : Int) (v : Value) : Logged Value := do
  let limit ← clampDepthLogged frames standardReserve standardDepth
  Logged.of ((ofAnything limit v).mapError PlainFault.toFault)

end MessageFormat.Plain
