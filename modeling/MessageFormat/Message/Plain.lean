import MessageFormat.Logged
import MessageFormat.Value.Order

/-!
# Plain data

Catalogues exchange messages as plain data: lists, dictionaries, strings, numbers and truth values
only. Text is a string, and every other node a dictionary that holds the fields it has:

* a placeholder its `id`, and `type`, `format` and `options` if they are there;
* a reference its `id`, the `type` of a number, and `ref` with the value true;
* a tag its `name`, and `children` unless it has none.

Reading plain data accepts exactly such dictionaries. A dictionary with a `name` is a tag, one
with an `id` and a true `ref` a reference, one with an `id` a placeholder; further keys are faults.
-/

namespace MessageFormat

/-- Why a message is not turned into plain data, or plain data into a message. -/
inductive PlainFault where
  | tooDeep (limit : Int)
  | misuse (misuse : Misuse)
  | notList (type : String)
  | notNode (valueLiteral : String)
  | unknownKeys (keysLiteral valueLiteral : String)
  | referenceNotNumber (valueLiteral : String)
  | typeNotText (valueLiteral : String)
  | formatNotUsable (valueLiteral : String)
  | optionsNotMapping (valueLiteral : String)
  | selectorNotText (selectorLiteral : String)
  /-- A number in what is shown has more digits than any number may have. -/
  | tooManyDigits
deriving DecidableEq, Repr

/-- What is told about data that cannot be turned. -/
def PlainFault.toFault : PlainFault → Fault
  | .tooDeep limit => .reported (Report.tooDeep limit)
  | .misuse m => .misuse m
  | .notList type => .invalidValue s!"Expected a list of nodes, got {type}"
  | .notNode v => .invalidValue s!"Not a message node: {v}"
  | .unknownKeys keys v => .invalidValue s!"Unknown keys {keys} in {v}"
  | .referenceNotNumber v =>
      .invalidValue s!"Numeric reference must have type '{referenceType}': {v}"
  | .typeNotText v => .invalidValue s!"Placeholder type must be a string: {v}"
  | .formatNotUsable v => .invalidValue s!"Placeholder format must be a string or an offset: {v}"
  | .optionsNotMapping v => .invalidValue s!"Placeholder options must be a mapping: {v}"
  | .selectorNotText v => .invalidValue s!"Sub-message selector must be a string: {v}"
  | .tooManyDigits => .invalidValue overlongMessage

/-- A fault that shows a value, unless the value cannot be shown. -/
def PlainFault.showing (v : Value) (fault : String → PlainFault) : PlainFault :=
  v.literal?.elim .tooManyDigits fault

theorem PlainFault.showing_ne_tooDeep
    {v : Value} {fault : String → PlainFault} (h : ∀ text limit, fault text ≠ .tooDeep limit)
    (limit : Int) :
    showing v fault ≠ .tooDeep limit := by
  unfold showing
  cases v.literal? with
  | none => exact nofun
  | some text => exact h text limit

/-- Enters a nested body. -/
def Guard.enterPlain (g : Guard) : Except PlainFault Guard :=
  g.enter.mapError fun full => .tooDeep full.limit

namespace Plain

/-- An entry of a dictionary that is only there if its value is not null. -/
def optionalEntry (name : String) : Value → List (Value × Value)
  | .null => []
  | v => [(.str name, v)]

/-- A placeholder as plain data. -/
def placeholder (id type format : Value) (options : Option Value) : Value :=
  .dict ((.str "id", id) :: optionalEntry "type" type ++ optionalEntry "format" format ++
    (options.elim [] fun v => [(.str "options", v)]))

/-- A reference as plain data. -/
def reference (id : Value) : Value :=
  .dict [(.str "id", id), (.str "type", .str referenceType), (.str "ref", .bool true)]

/-- A tag as plain data. -/
def tag (name : Value) (children : Option Value) : Value :=
  .dict ((.str "name", name) :: children.elim [] fun v => [(.str "children", v)])

mutual

/-- A node as plain data. -/
def ofNode (g : Guard) : Node → Except PlainFault Value
  | .text s => .ok (.str s)
  | .placeholder id type format none =>
      .ok (placeholder (.str id) (type.elim .null .str) (format.elim .null Format.toValue) none)
  | .placeholder id type format (some subs) => do
      let entries ← ofSubmessages g subs
      return placeholder (.str id) (type.elim .null .str) (format.elim .null Format.toValue)
        (some (.dict entries))
  | .reference id => .ok (reference (.str id))
  | .tag name none => .ok (tag (.str name) none)
  | .tag name (some children) => do
      let inner ← g.enterPlain
      let items ← ofNodes inner children
      return tag (.str name) (some (.list items))

/-- The nodes of a body as plain data. -/
def ofNodes (g : Guard) : List Node → Except PlainFault (List Value)
  | [] => .ok []
  | node :: rest => do
      let v ← ofNode g node
      let vs ← ofNodes g rest
      return v :: vs

/-- Sub-messages as the entries of a dictionary of plain data. -/
def ofSubmessages (g : Guard) :
    List (String × List Node) → Except PlainFault (List (Value × Value))
  | [] => .ok []
  | (selector, body) :: rest => do
      let inner ← g.enterPlain
      let items ← ofNodes inner body
      let entries ← ofSubmessages g rest
      return (.str selector, .list items) :: entries

end

/-- A message as plain data, within a nesting limit. -/
def ofMessage (limit : Int) (m : Message) : Except PlainFault Value :=
  (ofNodes { limit := limit } m).map .list

/-- Refuses keys that a dictionary of its kind must not have. -/
def checkKeys (entries : List (Value × Value)) (allowed : List String) : Except PlainFault Unit :=
  match (entries.map (·.1)).filter fun key => !allowed.any (key.same <| .str ·) with
  | [] => .ok ()
  | unknown =>
      match Value.sorted unknown with
      | .error m => .error (.misuse m)
      | .ok keys => .error (.showing (.dict entries) (.unknownKeys (Value.list keys).literal))

/-- The type of a placeholder. -/
def readType (entries : List (Value × Value)) : Except PlainFault (Option String) :=
  match (Value.field entries "type").getD .null with
  | .null => .ok none
  | .str s => .ok (some s)
  | _ => .error (.showing (.dict entries) .typeNotText)

/-- The format of a placeholder. -/
def readFormat (entries : List (Value × Value)) : Except PlainFault (Option Format) :=
  match (Value.field entries "format").getD .null with
  | .null => .ok none
  | .str s => .ok (some (.text s))
  | .int n => .ok (some (.offset n))
  | _ => .error (.showing (.dict entries) .formatNotUsable)

/-- What kind of node a dictionary describes. -/
inductive Shape where
  | tag (name : String)
  | reference (id : String)
  | placeholder (id : String)
deriving DecidableEq, Repr

/-- The kind of node that a dictionary describes, if any. -/
def shape? (entries : List (Value × Value)) : Option Shape :=
  match Value.field entries "name", Value.field entries "id", Value.field entries "ref" with
  | some (.str name), _, _ => some (.tag name)
  | _, some (.str id), some (.bool true) => some (.reference id)
  | _, some (.str id), _ => some (.placeholder id)
  | _, _, _ => none

/-- The keys that a dictionary of a kind may have. -/
def Shape.keys : Shape → List String
  | .tag _ => ["name", "children"]
  | .reference _ => ["id", "type", "ref"]
  | .placeholder _ => ["id", "type", "format", "options"]

mutual

/-- Reads a node of plain data. -/
def toNode (g : Guard) : Value → Except PlainFault Node
  | .str s => .ok (.text s)
  | .dict entries =>
      match shape? entries with
      | none => .error (.showing (.dict entries) .notNode)
      | some shape => do
          checkKeys entries shape.keys
          match shape with
          | .tag name => do
              let children ← childrenAmong g entries
              return .tag name children
          | .reference id =>
              if ((Value.field entries "type").getD (.str referenceType)).same
                  (.str referenceType) then
                return .reference id
              else
                .error (.showing (.dict entries) .referenceNotNumber)
          | .placeholder id => do
              let type ← readType entries
              let format ← readFormat entries
              let subs ← optionsAmong g (.dict entries) entries
              return .placeholder id type format subs
  | v => .error (.showing v .notNode)

/-- Reads a body of plain data. -/
def toBody (g : Guard) : Value → Except PlainFault (List Node)
  | .list items => toNodes g items
  | .tuple items => toNodes g items
  | .bytes [] => .ok []
  | .bytes (b :: _) => .error (.notNode (decimal b.toNat))
  | v => .error (.notList v.typeName)

/-- Reads the nodes of a body. -/
def toNodes (g : Guard) : List Value → Except PlainFault (List Node)
  | [] => .ok []
  | v :: rest => do
      let node ← toNode g v
      let nodes ← toNodes g rest
      return node :: nodes

/-- Reads the content of a tag, if there is some. -/
def childrenAmong (g : Guard) : List (Value × Value) → Except PlainFault (Option (List Node))
  | [] => .ok none
  | (key, v) :: rest =>
      if key.same (.str "children") then
        match v with
        | .null => .ok none
        | v => do
            let inner ← g.enterPlain
            let children ← toBody inner v
            return some children
      else
        childrenAmong g rest

/-- Reads the sub-messages of a placeholder, if there are some. -/
def optionsAmong (g : Guard) (whole : Value) :
    List (Value × Value) → Except PlainFault (Option (List (String × List Node)))
  | [] => .ok none
  | (key, v) :: rest =>
      if key.same (.str "options") then
        match v with
        | .null => .ok none
        | .dict entries => do
            let subs ← toSubmessages g entries
            return some subs
        | _ => .error (.showing whole .optionsNotMapping)
      else
        optionsAmong g whole rest

/-- Reads sub-messages. -/
def toSubmessages (g : Guard) :
    List (Value × Value) → Except PlainFault (List (String × List Node))
  | [] => .ok []
  | (.str selector, v) :: rest => do
      let inner ← g.enterPlain
      let body ← toBody inner v
      let subs ← toSubmessages g rest
      return (selector, body) :: subs
  | (key, _) :: _ => .error (.showing key .selectorNotText)

end

/-- Reads a message of plain data, within a nesting limit. -/
def toMessage (limit : Int) (v : Value) : Except PlainFault Message :=
  toBody { limit := limit } v

/-- Reads a message of plain data, on a stack of so many frames. -/
def toMessageOnStack (frames : Int) (v : Value) : Logged Message := do
  let limit ← clampDepthLogged frames standardReserve standardDepth
  Logged.of ((toMessage limit v).mapError PlainFault.toFault)

end Plain

end MessageFormat
