import MessageFormat.Logged
import MessageFormat.Message.Inventory
import MessageFormat.Value.Literal
import MessageFormat.Value.Order

/-!
# What a hand-built tree asks for

A tree that is handed over as a value may be a message, and is then surveyed as one. Otherwise its
names are values too, which need not be texts but must be usable as keys, and a body may be
anything that can be iterated over nodes.
-/

namespace MessageFormat

/-- Names are the same if they are equal as values. -/
instance : BEq Value :=
  ⟨Value.same⟩

namespace Survey

/-- What is told about a body that is nested too deeply. -/
def tooDeep (full : Guard.Full) : Fault :=
  .reported (Report.tooDeep full.limit)

/-- The same step with names as values. -/
def Step.toValues (step : Step String Guard.Full) : Step Value Fault where
  survey := {
    inventory := step.survey.inventory.map .str
    surrounding := step.survey.surrounding
    guard := step.survey.guard }
  outcome := step.outcome.mapError tooDeep

/-- The optional value that a value is: null is none. -/
def optional? : Value → Option Value
  | .null => none
  | v => some v

/-- Notes a use of a placeholder, whose name and type have to be usable as keys. -/
def useValue (s : Survey Value) (name type : Value) : Step Value Fault :=
  match (name.unhashable? <|> type.unhashable?) with
  | some bad => ⟨s, .error (.misuse (.notHashable bad))⟩
  | none => (s.addUse name (optional? type)).done

/-- Notes a tag, whose name has to be usable as a key. -/
def tagValue (s : Survey Value) (name : Value) : Step Value Fault :=
  match name.unhashable? with
  | some bad => ⟨s, .error (.misuse (.notHashable bad))⟩
  | none => (s.addTag name).done

mutual

/-- Goes through a value as a node. -/
def visitValue (s : Survey Value) : Value → Step Value Fault
  | .str _ => s.done
  | .placeholder id type _ none => s.useValue id type
  | .placeholder id type _ (some entries) =>
      (s.useValue id type).andThen fun next =>
        visitEntries (next.addChoice id (if type.isVoid then .str "" else type)
          (entries.map (·.1))) entries
  | .reference id => s.markReference.useValue id (.str referenceType)
  | .tag name children =>
      (s.tagValue name).andThen fun next =>
        if children.isVoid then
          next.done
        else
          next.nested .tag tooDeep fun inner => visitBody inner children
  | v => ⟨s, .error (v.literal?.elim (.invalidValue overlongMessage) .unreachable)⟩

/-- Goes through a value as a body. -/
def visitBody (s : Survey Value) : Value → Step Value Fault
  | .list items => visitItems s items
  | .tuple items => visitItems s items
  | .dict entries => visitKeys s entries
  | .str _ => s.done
  | .bytes [] => s.done
  | .bytes (b :: _) => ⟨s, .error (.unreachable (decimal b.toNat))⟩
  | v => ⟨s, .error (.misuse (.notIterable v.typeName))⟩

/-- Goes through the items of a body. -/
def visitItems (s : Survey Value) : List Value → Step Value Fault
  | [] => s.done
  | v :: rest => (visitValue s v).andThen fun next => visitItems next rest

/-- Goes through the keys of a dictionary, which are the items of it as a body. -/
def visitKeys (s : Survey Value) : List (Value × Value) → Step Value Fault
  | [] => s.done
  | (key, _) :: rest => (visitValue s key).andThen fun next => visitKeys next rest

/-- Goes through the sub-messages of a placeholder. -/
def visitEntries (s : Survey Value) : List (Value × Value) → Step Value Fault
  | [] => s.done
  | (_, body) :: rest =>
      (s.nested .submessage tooDeep fun inner => visitBody inner body).andThen fun next =>
        visitEntries next rest

end

/-- Goes through trees one after the other, and on after a failure. -/
def visitEachValue (s : Survey Value) : List Value → List (Step Value Fault)
  | [] => []
  | v :: rest => visitBody s v :: visitEachValue (visitBody s v).survey rest

/-- Goes through trees one after the other within a nesting limit. -/
def ofAnything (limit : Int) (vs : List Value) : List (Step Value Fault) :=
  match vs.mapM Value.toMessage? with
  | some messages => ((fresh limit).visitEach messages).map Step.toValues
  | none => (fresh limit).visitEachValue vs

/-- Goes through trees one after the other, on a stack of so many frames. -/
def ofAnythingOnStack (frames requested : Int) (vs : List Value) :
    Logged (List (Step Value Fault)) := do
  let limit ← clampDepthLogged frames standardReserve requested
  return ofAnything limit vs

end Survey

namespace Inventory

/-- What a tree asks for, on a stack of so many frames. A text is none, although its characters
could be iterated over. -/
def ofAnythingOnStack (frames : Int) : Value → Logged (Inventory Value)
  | .str _ => Logged.fail (.misuse .notRead)
  | v => do
      let steps ← Survey.ofAnythingOnStack frames standardDepth [v]
      let found ← Logged.of
        (steps.mapM fun step => step.outcome.map fun () => step.survey.inventory)
      return found.headD {}

/-- The place of a kind of body in listings. -/
def rank : Surrounding → Nat
  | .message => 0
  | .submessage => 1
  | .tag => 2

/-- By what the optional types of a name are listed: none comes first. -/
def typeKey (type : Option Value) : List Value :=
  [.bool type.isSome, type.getD (.str "")]

/-- The uses by name, type and surrounding. -/
def usesInOrder (inv : Inventory Value) : Except Misuse (List (Use Value)) :=
  Value.sortedBy (fun u => .tuple (u.name :: typeKey u.type ++ [.int (rank u.surrounding)]))
    inv.uses

/-- The tags in order. -/
def tagsInOrder (inv : Inventory Value) : Except Misuse (List Value) :=
  Value.sorted inv.tags

/-- The names in order. -/
def namesInOrder (inv : Inventory Value) : Except Misuse (List Value) :=
  Value.sorted inv.names

/-- The types of a name in order. -/
def typesInOrder (inv : Inventory Value) (name : Value) : Except Misuse (List (Option Value)) :=
  Value.sortedBy (fun type => .tuple (typeKey type)) (inv.typesOf name)

/-- The selectors of a name in order. -/
def selectorsInOrder (inv : Inventory Value) (name : Value) : Except Misuse (List Value) :=
  Value.sorted (inv.selectorsOf name)

end Inventory

end MessageFormat
