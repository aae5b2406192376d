import MessageFormat.Message
import MessageFormat.Proofs.Renaming

/-!
# Renaming messages

A message is renamed in all its texts: the text itself, ids, types, formats, selectors and tag
names. Numbers stay as they are. The two conventions for building messages, `Node.before` and
`Submessages.before`, commute with renaming, since it tells the same texts apart.
-/

namespace MessageFormat

namespace Renaming

variable (s : Renaming)

/-- A format, renamed: an offset stays as it is. -/
def format : Format → Format
  | .text content => .text (s.str content)
  | .offset n => .offset n

mutual

/-- A node, renamed in all its texts. -/
def node : Node → Node
  | .text content => .text (s.str content)
  | .placeholder id type format none =>
      .placeholder (s.str id) (type.map s.str) (format.map s.format) none
  | .placeholder id type format (some subs) =>
      .placeholder (s.str id) (type.map s.str) (format.map s.format) (some (submessages subs))
  | .reference id => .reference (s.str id)
  | .tag name none => .tag (s.str name) none
  | .tag name (some children) => .tag (s.str name) (some (message children))

/-- The nodes of a message, renamed. -/
def message : List Node → List Node
  | [] => []
  | n :: rest => node n :: message rest

/-- Sub-messages, renamed together with their selectors. -/
def submessages : List (String × List Node) → List (String × List Node)
  | [] => []
  | (selector, body) :: rest => (s.str selector, message body) :: submessages rest

end

section Messages

theorem node_before
    (n : Node) (rest : Message) :
    s.message (n.before rest) = (s.node n).before (s.message rest) := by
  match n with
  | .text content =>
      by_cases hcontent : content = ""
      · subst hcontent
        rfl
      · match rest with
        | [] => simp [Node.before, node, message, hcontent]
        | .text next :: others => simp [Node.before, node, message, hcontent]
        | .placeholder id type format none :: others =>
            simp [Node.before, node, message, hcontent]
        | .placeholder id type format (some subs) :: others =>
            simp [Node.before, node, message, hcontent]
        | .reference id :: others => simp [Node.before, node, message, hcontent]
        | .tag name none :: others => simp [Node.before, node, message, hcontent]
        | .tag name (some children) :: others => simp [Node.before, node, message, hcontent]
  | .placeholder id type format none => rfl
  | .placeholder id type format (some subs) => rfl
  | .reference id => rfl
  | .tag name none => rfl
  | .tag name (some children) => rfl

theorem isEmpty_message
    (m : Message) :
    (s.message m).isEmpty = m.isEmpty := by
  cases m <;> rfl

theorem submessages_eq_map
    (subs : Submessages) :
    s.submessages subs = subs.map fun entry => (s.str entry.1, s.message entry.2) := by
  induction subs with
  | nil => rfl
  | cons entry subs ih =>
      obtain ⟨selector, body⟩ := entry
      rw [submessages, ih, List.map_cons]

theorem isComplete_submessages
    (subs : Submessages) :
    Submessages.isComplete (s.submessages subs) requiredSelector =
      Submessages.isComplete subs requiredSelector := by
  simp [Submessages.isComplete, submessages_eq_map, List.any_map, Function.comp_def]

theorem find?_submessages
    (subs : Submessages) (selector : String) :
    Submessages.find? (s.submessages subs) (s.str selector) =
      (Submessages.find? subs selector).map s.message := by
  induction subs with
  | nil => rfl
  | cons entry subs ih =>
      obtain ⟨first, body⟩ := entry
      simp only [Submessages.find?, submessages, List.lookup_cons, str_beq] at ih ⊢
      cases selector == first with
      | true => rfl
      | false => exact ih

theorem submessages_before
    (subs : Submessages) (selector : String) (body : Message) :
    s.submessages (subs.before selector body) =
      Submessages.before (s.submessages subs) (s.str selector) (s.message body) := by
  unfold Submessages.before
  rw [find?_submessages]
  cases subs.find? selector with
  | none => rfl
  | some later =>
      have hfilter : s.submessages (subs.filter (·.1 != selector)) =
          (s.submessages subs).filter (·.1 != s.str selector) := by
        rw [submessages_eq_map, submessages_eq_map, List.filter_map]
        simp [Function.comp_def, bne]
      rw [submessages, hfilter]
      rfl

end Messages

end Renaming

end MessageFormat
