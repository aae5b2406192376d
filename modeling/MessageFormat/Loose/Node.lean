import MessageFormat.Logged
import MessageFormat.Value.Equality

/-!
# Questions about a node

What can be asked about a value that may or may not be a node of a message.
-/

namespace MessageFormat.Value

/-- Whether a value is text. -/
def isText : Value → Bool
  | .str _ => true
  | _ => false

/-- Whether a value is a placeholder. -/
def isPlaceholder : Value → Bool
  | .placeholder .. => true
  | _ => false

/-- Whether a value is a reference. -/
def isReference : Value → Bool
  | .reference _ => true
  | _ => false

/-- Whether a value is a tag. -/
def isTag : Value → Bool
  | .tag .. => true
  | _ => false

/-- The type of a placeholder, or that of the number for which a reference stands. -/
def nodeType : Value → Value
  | .placeholder _ type _ _ => type
  | .reference _ => .str referenceType
  | _ => .null

/-- The offset of a placeholder, which is its format if that is an integer or a truth value. -/
def offset : Value → Value
  | .placeholder _ _ (.int n) _ => .int n
  | .placeholder _ _ (.bool b) _ => .bool b
  | _ => .null

/-- Whether a placeholder has the sub-message that every list of them must define. -/
def hasRequiredSubmessage : Value → Bool
  | .placeholder _ _ _ (some entries) => (field entries requiredSelector).isSome
  | _ => false

/-- The literal of a value, unless the value cannot be shown. -/
def asLiteral (v : Value) : Logged String :=
  Logged.of (v.literal?.elim (.error (.invalidValue overlongMessage)) .ok)

end MessageFormat.Value
