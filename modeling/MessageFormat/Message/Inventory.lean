import MessageFormat.Depth

/-!
# What a message asks for

The same message in two languages should use the same placeholders, selectors and tags. An
`Inventory` holds what a walk over a message found: each use of a placeholder once, the
placeholders that choose among sub-messages in reading order, each tag once, and whether a number
is referred to.

A `Survey` is such a walk, and can go over several messages one after the other. What it found
before a body that is nested too deeply stays found. It also stays in that body: the surrounding
of the next message is then not the message itself but what the walk gave up in.
-/

namespace MessageFormat

/-- The kind of the innermost body that a placeholder stands in. -/
inductive Surrounding where
  | message
  | submessage
  | tag
deriving DecidableEq, Repr

/-- All kinds of bodies. -/
def Surrounding.all : List Surrounding :=
  [.message, .submessage, .tag]

/-- The name of a kind of body. -/
def Surrounding.label : Surrounding → String
  | .message => "message"
  | .submessage => "submessage"
  | .tag => "tag"

/-- A use of a placeholder; a reference is one too. -/
structure Inventory.Use (α : Type) where
  name : α
  type : Option α
  surrounding : Surrounding
deriving BEq, ReflBEq, LawfulBEq, Repr

/-- A placeholder that chooses among sub-messages. -/
structure Inventory.Choice (α : Type) where
  name : α
  type : α
  selectors : List α
deriving BEq, ReflBEq, LawfulBEq, Repr

/-- What was found in messages whose names are of some type. -/
structure Inventory (α : Type) where
  uses : List (Inventory.Use α) := []
  choices : List (Inventory.Choice α) := []
  tags : List α := []
  hasReferences : Bool := false
deriving BEq, ReflBEq, LawfulBEq, Repr

namespace Inventory

section Queries

variable {α : Type} [BEq α]

/-- A list with one more element, unless it is there already. -/
def addNew (known : List α) (x : α) : List α :=
  if known.contains x then
    known
  else
    known ++ [x]

/-- The different elements of a list. -/
def distinct (xs : List α) : List α :=
  xs.foldl addNew []

/-- Whether some placeholder chooses among sub-messages. -/
def hasChoices (inv : Inventory α) : Bool :=
  !inv.choices.isEmpty

/-- The names of the placeholders. -/
def names (inv : Inventory α) : List α :=
  distinct (inv.uses.map (·.name))

/-- Whether a value for this name is needed. -/
def requires (inv : Inventory α) (name : α) : Bool :=
  inv.names.contains name

/-- The types with which a name is used. -/
def typesOf (inv : Inventory α) (name : α) : List (Option α) :=
  distinct ((inv.uses.filter (·.name == name)).map (·.type))

/-- The selectors with which a name is used. -/
def selectorsOf (inv : Inventory α) (name : α) : List α :=
  distinct ((inv.choices.filter (·.name == name)).flatMap (·.selectors))

end Queries

/-- The same inventory with other names. -/
def map {α β : Type} (f : α → β) (inv : Inventory α) : Inventory β where
  uses := inv.uses.map fun u => ⟨f u.name, u.type.map f, u.surrounding⟩
  choices := inv.choices.map fun c => ⟨f c.name, f c.type, c.selectors.map f⟩
  tags := inv.tags.map f
  hasReferences := inv.hasReferences

end Inventory

/-- A walk over messages: what it found, the body it is in, and the levels it entered. -/
structure Survey (α : Type) where
  inventory : Inventory α := {}
  surrounding : Surrounding := .message
  guard : Guard
deriving BEq, Repr

/-- A survey after a part of a message, and whether it could go through that part. -/
structure Survey.Step (α ε : Type) where
  survey : Survey α
  outcome : Except ε Unit

namespace Survey

/-- A survey that did not start yet. -/
def fresh {α : Type} (limit : Int) : Survey α :=
  { guard := { limit := limit } }

section Findings

variable {α : Type} [BEq α]

/-- Notes a use of a placeholder. -/
def addUse (s : Survey α) (name : α) (type : Option α) : Survey α :=
  { s with inventory.uses := Inventory.addNew s.inventory.uses ⟨name, type, s.surrounding⟩ }

/-- Notes a choice among sub-messages. -/
def addChoice (s : Survey α) (name type : α) (selectors : List α) : Survey α :=
  { s with inventory.choices := s.inventory.choices ++ [⟨name, type, selectors⟩] }

/-- Notes a tag. -/
def addTag (s : Survey α) (name : α) : Survey α :=
  { s with inventory.tags := Inventory.addNew s.inventory.tags name }

/-- Notes that there is a reference. -/
def markReference (s : Survey α) : Survey α :=
  { s with inventory.hasReferences := true }

end Findings

/-- A part without difficulties. -/
def done {α ε : Type} (s : Survey α) : Step α ε :=
  ⟨s, .ok ()⟩

/-- Goes on with the next part, unless this one failed. -/
def Step.andThen {α ε : Type} (x : Step α ε) (next : Survey α → Step α ε) : Step α ε :=
  match x.outcome with
  | .ok () => next x.survey
  | .error _ => x

/-- Goes through a nested body. The walk is in the body even if the guard does not let it enter,
and is back in the surrounding body only if it came through. -/
def nested {α ε : Type} (s : Survey α) (surrounding : Surrounding) (tooDeep : Guard.Full → ε)
    (walk : Survey α → Step α ε) : Step α ε :=
  match s.guard.enter with
  | .error full => ⟨{ s with surrounding := surrounding }, .error (tooDeep full)⟩
  | .ok inner =>
      let step := walk { s with surrounding := surrounding, guard := inner }
      let left := { step.survey with guard := step.survey.guard.leave }
      match step.outcome with
      | .ok () => ⟨{ left with surrounding := s.surrounding }, .ok ()⟩
      | .error fault => ⟨left, .error fault⟩

mutual

/-- Goes through a node. -/
def visitNode (s : Survey String) : Node → Step String Guard.Full
  | .text _ => s.done
  | .placeholder id type _ none => (s.addUse id type).done
  | .placeholder id type _ (some subs) =>
      visitSubmessages
        ((s.addUse id type).addChoice id (type.getD "") (subs.map (·.1))) subs
  | .reference id => (s.markReference.addUse id (some referenceType)).done
  | .tag name none => (s.addTag name).done
  | .tag name (some []) => (s.addTag name).done
  | .tag name (some (node :: rest)) =>
      (s.addTag name).nested .tag id fun inner =>
        (visitNode inner node).andThen fun next => visitNodes next rest

/-- Goes through the nodes of a body. -/
def visitNodes (s : Survey String) : List Node → Step String Guard.Full
  | [] => s.done
  | node :: rest => (visitNode s node).andThen fun next => visitNodes next rest

/-- Goes through the sub-messages of a placeholder. -/
def visitSubmessages (s : Survey String) : List (String × List Node) → Step String Guard.Full
  | [] => s.done
  | (_, body) :: rest =>
      (s.nested .submessage id fun inner => visitNodes inner body).andThen fun next =>
        visitSubmessages next rest

end

/-- Goes through a message. -/
def visit (s : Survey String) (m : Message) : Step String Guard.Full :=
  visitNodes s m

/-- Goes through messages one after the other, and on after a message that is nested too deeply. -/
def visitEach (s : Survey String) : List Message → List (Step String Guard.Full)
  | [] => []
  | m :: rest => s.visit m :: visitEach (s.visit m).survey rest

end Survey

/-- What a message asks for, if it is not nested too deeply. -/
def Message.inventory (limit : Int) (m : Message) : Except Guard.Full (Inventory String) :=
  let step := (Survey.fresh limit).visit m
  step.outcome.map fun () => step.survey.inventory

end MessageFormat
