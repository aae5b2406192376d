import MessageFormat.Proofs.WellFormed

/-!
# Nesting of what is read

What is read is never nested deeper than the levels that are left where reading begins
(`Reads.nested`). A level is taken for each body that a placeholder or a tag encloses, so a message
that a reader returns is within the limit of the reader, which is what writing it again needs.
-/

namespace MessageFormat

/-- A node in front of a body adds nothing but its own depth. -/
theorem Node.depth_before
    (node : Node) (rest : Message) :
    Message.depth (node.before rest) ≤ max node.depth (Message.depth rest) := by
  cases htext : Message.startsWithText [node] with
  | false =>
      apply Nat.le_of_eq
      rw [Node.before_of_not_text htext, Message.depth]
  | true =>
      match node with
      | .text s =>
          by_cases hs : s = ""
          · subst hs
            exact Nat.le_max_right _ _
          · cases hrest : Message.startsWithText rest with
            | false =>
                apply Nat.le_of_eq
                rw [Node.text_before_of_not_text hs hrest, Message.depth]
            | true =>
                match rest with
                | .text t :: rest =>
                    rw [Node.text_before_text hs]
                    simp [Message.depth, Node.depth]

theorem Submessages.depth_le_iff
    {subs : Submessages} {n : Nat} :
    Submessages.depth subs ≤ n ↔ ∀ entry ∈ subs, 1 + Message.depth entry.2 ≤ n := by
  induction subs with
  | nil =>
      simp [Submessages.depth]
  | cons entry subs ih =>
      obtain ⟨selector, body⟩ := entry
      rw [Submessages.depth, Nat.max_le, ih, List.forall_mem_cons]

/-- A sub-message in front of others adds nothing but its own depth. -/
theorem Submessages.depth_before
    {subs : Submessages} {body : Message} {n : Nat}
    (hsubs : Submessages.depth subs ≤ n) (selector : String) (hbody : 1 + Message.depth body ≤ n) :
    Submessages.depth (subs.before selector body) ≤ n := by
  rw [Submessages.depth_le_iff] at hsubs
  unfold Submessages.before
  split
  · next later hlater =>
      obtain ⟨first, last, rfl, _⟩ := List.lookup_eq_some_iff.mp hlater
      rw [Submessages.depth_le_iff]
      intro entry hentry
      rcases List.mem_cons.mp hentry with rfl | hentry
      · exact hsubs (selector, later) (by simp)
      · exact hsubs entry (List.mem_filter.mp hentry).1
  · rw [Submessages.depth_le_iff]
    intro entry hentry
    rcases List.mem_cons.mp hentry with rfl | hentry
    · exact hbody
    · exact hsubs entry hentry

namespace Context

/-- The number of levels that may still be entered. -/
def levels (cx : Context) : Nat :=
  (cx.limit - cx.depth).toNat

theorem levels_of_enter
    {cx inner : Context} {enclosing : Enclosing} (h : cx.enter? enclosing = some inner) :
    inner.levels + 1 = cx.levels := by
  obtain ⟨hlt, rfl⟩ := enter?_eq_some h
  simp only [levels]
  omega

/-- What is read keeps to the levels that are left. Sub-messages stand one level further in. -/
def Reading.Nested (cx : Context) : Reading → Prop
  | .body body => Message.depth body.nodes ≤ cx.levels
  | .piece _ (.node node) => node.depth ≤ cx.levels
  | .placeholder node => node.depth ≤ cx.levels
  | .submessages subs => Submessages.depth subs ≤ cx.levels + 1
  | .markup (.node node) => node.depth ≤ cx.levels
  | .piece _ (.closingTag _) | .markup (.closingTag _) => True

theorem atom?_depth
    {cx : Context} {c : Char} {next : Option Char} {node : Node}
    (h : cx.atom? c next = some node) :
    node.depth = 0 := by
  unfold atom? at h
  split at h
  · cases h
    rfl
  · split at h
    · obtain ⟨id, _, rfl⟩ := Option.map_eq_some_iff.mp h
      rfl
    · split at h <;> cases h
      rfl

theorem Reads.nested
    {cx : Context} {p q : Place} {x : Reading}
    (h : Reads cx p x q) :
    Reading.Nested cx x := by
  induction h with
  | bodyAtEnd hpeek => exact Nat.zero_le _
  | bodyEnded hpeek hends => exact Nat.zero_le _
  | bodyClosed hpeek hends hpiece ih => exact Nat.zero_le _
  | @bodyNode cx p q r c node body hpeek hends hpiece hbody ihpiece ihbody =>
      exact Nat.le_trans (node.depth_before body.nodes) (Nat.max_le.mpr ⟨ihpiece, ihbody⟩)
  | atom hatom =>
      simp only [Reading.Nested, atom?_depth hatom]
      exact Nat.zero_le _
  | opened hatom hopener hnode ih => exact ih
  | @marked cx p q c piece hatom htags hopener hmarkup ih =>
      cases piece with
      | node node => exact ih
      | closingTag name => trivial
  | text hraw => exact Nat.zero_le _
  | bare hhead => exact Nat.zero_le _
  | typed hhead => exact Nat.zero_le _
  | formatted hhead hoffset hplain hformat hcloser => exact Nat.zero_le _
  | branching hhead hoffset hbranching henter hsubs hcomplete hcloser ih =>
      have hlevels := levels_of_enter henter
      simp only [Reading.Nested, Node.depth] at ih ⊢
      omega
  | entriesEnded hpeek => exact Nat.zero_le _
  | entry hpeek hselector hbody hcloser hsubs ihbody ihsubs =>
      simp only [Reading.Nested] at ihbody
      exact Submessages.depth_before ihsubs _ (by omega)
  | keptMarkup hhead => exact Nat.zero_le _
  | closingTag hhead => trivial
  | emptyTag hhead => exact Nat.zero_le _
  | @tag cx inner p q r name body hhead henter hbody hclosed ih =>
      have hlevels := levels_of_enter henter
      simp only [Reading.Nested] at ih ⊢
      cases hnodes : body.nodes with
      | nil =>
          exact Nat.zero_le _
      | cons node rest =>
          rw [hnodes, Message.depth] at ih
          simp only [List.isEmpty_cons, Bool.false_eq_true, if_false, Node.depth]
          omega

end Context

/-- A message that a reader returns is nested within the limit of the reader. -/
theorem Reader.depth_le_of_readValue
    {r : Reader} {v : Value} {m : Message}
    (h : (r.readValue v).outcome = .ok m) :
    Message.depth m ≤ r.depthLimit.toNat := by
  obtain ⟨_, closed, p, hreads⟩ := Reader.readValue_eq_ok_iff.mp h
  have hnested := hreads.nested
  simpa [Context.Reading.Nested, Context.levels, Reader.context] using hnested

end MessageFormat
