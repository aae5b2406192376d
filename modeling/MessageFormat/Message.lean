/-!
# Messages

A message is a list of nodes: literal text, placeholders, references back to a number, and
markup tags. A placeholder of a branching type holds one sub-message for each selector, in the
order in which the selectors were written; tags hold their content. Both nest.

The module fixes two conventions for building messages. Neighbouring text is one node
(`Node.before`), and a selector that is written twice keeps its first place and takes its last
sub-message (`Submessages.before`).
-/

namespace MessageFormat

/-- What stands in the format position of a placeholder. -/
inductive Format where
  | text (content : String)
  | offset (value : Int)
deriving DecidableEq, Repr

/-- One part of a message. -/
inductive Node where
  | text (content : String)
  | placeholder
      (id : String)
      (type : Option String)
      (format : Option Format)
      (submessages : Option (List (String × List Node)))
  | reference (id : String)
  | tag (name : String) (children : Option (List Node))
deriving Repr, Inhabited

/-- The nodes of a message, in reading order. -/
abbrev Message := List Node

/-- Sub-messages by selector, in reading order. -/
abbrev Submessages := List (String × Message)

mutual

/-- Decides whether two nodes are equal. -/
def Node.decEq : (a b : Node) → Decidable (a = b)
  | .text s, .text t => decidable_of_iff (s = t) (by simp)
  | .placeholder id type format none, .placeholder id' type' format' none =>
      decidable_of_iff (id = id' ∧ type = type' ∧ format = format') (by simp)
  | .placeholder id type format (some subs), .placeholder id' type' format' (some subs') =>
      have := Submessages.decEq subs subs'
      decidable_of_iff (id = id' ∧ type = type' ∧ format = format' ∧ subs = subs') (by simp)
  | .reference id, .reference id' => decidable_of_iff (id = id') (by simp)
  | .tag name none, .tag name' none => decidable_of_iff (name = name') (by simp)
  | .tag name (some children), .tag name' (some children') =>
      have := Message.decEq children children'
      decidable_of_iff (name = name' ∧ children = children') (by simp)
  | .text _, .placeholder .. | .text _, .reference _ | .text _, .tag .. => .isFalse nofun
  | .placeholder .., .text _ | .placeholder .., .reference _ | .placeholder .., .tag .. =>
      .isFalse nofun
  | .placeholder _ _ _ none, .placeholder _ _ _ (some _) => .isFalse nofun
  | .placeholder _ _ _ (some _), .placeholder _ _ _ none => .isFalse nofun
  | .reference _, .text _ | .reference _, .placeholder .. | .reference _, .tag .. => .isFalse nofun
  | .tag .., .text _ | .tag .., .placeholder .. | .tag .., .reference _ => .isFalse nofun
  | .tag _ none, .tag _ (some _) => .isFalse nofun
  | .tag _ (some _), .tag _ none => .isFalse nofun

/-- Decides whether two messages are equal. -/
def Message.decEq : (a b : List Node) → Decidable (a = b)
  | [], [] => .isTrue rfl
  | [], _ :: _ | _ :: _, [] => .isFalse nofun
  | a :: as, b :: bs =>
      have := Node.decEq a b
      have := Message.decEq as bs
      decidable_of_iff (a = b ∧ as = bs) (by simp)

/-- Decides whether two lists of sub-messages are equal. -/
def Submessages.decEq : (a b : List (String × List Node)) → Decidable (a = b)
  | [], [] => .isTrue rfl
  | [], _ :: _ | _ :: _, [] => .isFalse nofun
  | (s, a) :: as, (t, b) :: bs =>
      have := Message.decEq a b
      have := Submessages.decEq as bs
      decidable_of_iff (s = t ∧ a = b ∧ as = bs) (by simp [and_assoc])

end

instance : DecidableEq Node :=
  Node.decEq

namespace Node

/-- A placeholder without type, format or sub-messages. -/
def bare (id : String) : Node :=
  .placeholder id none none none

/-- Puts a node in front of a message: empty text vanishes, and text joins text that follows. -/
def before : Node → Message → Message
  | .text s, rest =>
      if s.isEmpty then
        rest
      else
        match rest with
        | .text t :: rest' => .text (s ++ t) :: rest'
        | _ => .text s :: rest
  | node, rest => node :: rest

end Node

namespace Submessages

/-- The sub-message of a selector. -/
def find? (subs : Submessages) (selector : String) : Option Message :=
  subs.lookup selector

/-- Whether the selector that every list must define is present. -/
def isComplete (subs : Submessages) (selector : String) : Bool :=
  subs.any (·.1 == selector)

/-- Puts a sub-message in front of those that follow it in the text: if its selector comes again
later, the later sub-message moves up to this place. -/
def before (subs : Submessages) (selector : String) (body : Message) : Submessages :=
  match find? subs selector with
  | some later => (selector, later) :: subs.filter (·.1 != selector)
  | none => (selector, body) :: subs

end Submessages

mutual

/-- The number of bodies around the most deeply nested part of a node. A sub-message counts even
if it is empty, the content of a tag only if there is some. -/
def Node.depth : Node → Nat
  | .text _ => 0
  | .placeholder _ _ _ none => 0
  | .placeholder _ _ _ (some subs) => Submessages.depth subs
  | .reference _ => 0
  | .tag _ none => 0
  | .tag _ (some []) => 0
  | .tag _ (some (node :: rest)) => 1 + max node.depth (Message.depth rest)

/-- The depth of the deepest node. -/
def Message.depth : List Node → Nat
  | [] => 0
  | node :: rest => max node.depth (Message.depth rest)

/-- One more than the depth of the deepest sub-message. -/
def Submessages.depth : List (String × List Node) → Nat
  | [] => 0
  | (_, body) :: rest => max (1 + Message.depth body) (Submessages.depth rest)

end

end MessageFormat
