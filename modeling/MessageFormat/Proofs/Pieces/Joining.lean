import MessageFormat.Proofs.Pieces.Quoting
import MessageFormat.Proofs.Lookalikes

/-!
# Joining neighbouring texts

A message whose texts are cut to pieces has texts side by side. Joining makes them one text again,
with a joint between two of them that depends on the texts and on where they stand
(`Message.joined`): nothing for the message that was cut, and for the message that comes back from
its written text a quote wherever two pieces touch (`Message.rejoined`).

Whatever the joint is, joining keeps the shape of a message: it is as deep, its selectors are the
same, and it is well-formed for one joint if it is for another. Two joints differ exactly where one
puts something between two pieces (`Message.rejoined_eq_iff`).
-/

namespace MessageFormat

/-- Puts a node in front of a message. Text joins text that follows, with a joint between them. -/
def Node.attach (joint : String → String → String) : Node → Message → Message
  | .text s, .text t :: rest => .text (s ++ joint s t ++ t) :: rest
  | node, rest => node :: rest

mutual

/-- A node in whose bodies neighbouring texts are joined. The joint may depend on the type of the
placeholder whose sub-message they stand in. -/
def Node.joined (joint : Option String → String → String → String) : Node → Node
  | .text s => .text s
  | .placeholder id type format none => .placeholder id type format none
  | .placeholder id type format (some subs) =>
      .placeholder id type format (some (Submessages.joined joint type subs))
  | .reference id => .reference id
  | .tag name none => .tag name none
  | .tag name (some children) => .tag name (some (Message.joined joint none children))

/-- A body in which neighbouring texts are joined. -/
def Message.joined (joint : Option String → String → String → String) (around : Option String) :
    List Node → List Node
  | [] => []
  | node :: rest =>
      Node.attach (joint around) (Node.joined joint node) (Message.joined joint around rest)

/-- Sub-messages in which neighbouring texts are joined. -/
def Submessages.joined (joint : Option String → String → String → String)
    (around : Option String) : List (String × List Node) → List (String × List Node)
  | [] => []
  | (selector, body) :: rest =>
      (selector, Message.joined joint around body) :: Submessages.joined joint around rest

end

mutual

/-- No text in a node is empty. -/
def Node.Solid : Node → Prop
  | .text s => s ≠ ""
  | .placeholder _ _ _ (some subs) => Submessages.Solid subs
  | .tag _ (some children) => Message.Solid children
  | _ => True

/-- No text in a message is empty. -/
def Message.Solid : List Node → Prop
  | [] => True
  | node :: rest => Node.Solid node ∧ Message.Solid rest

/-- No text in sub-messages is empty. -/
def Submessages.Solid : List (String × List Node) → Prop
  | [] => True
  | (_, body) :: rest => Message.Solid body ∧ Submessages.Solid rest

end

namespace Message

/-- Nothing is put between texts. -/
def noJoint (_ : Option String) (_ _ : String) : String :=
  ""

/-- A message in which neighbouring texts are one. -/
def merged (m : Message) : Message :=
  joined noJoint none m

/-- The texts of a message are cut to pieces, anywhere in it: no piece is empty, and together
they are the texts that were cut. -/
structure Pieces (m pieces : Message) : Prop where
  solid : Solid pieces
  merged_eq : pieces.merged = m

/-- The text that a message starts with, in however many pieces. -/
def leading : List Node → String
  | .text s :: rest => s ++ leading rest
  | _ => ""

/-- The first text of a message, if the message starts with one. -/
def opening : List Node → String
  | .text s :: _ => s
  | _ => ""

end Message

namespace Dialect

/-- How text is quoted in a body that stands in a placeholder of this type. -/
def textMode (d : Dialect) (around : Option String) : Mode :=
  if around.any d.isNumeric then .numericBody else .body

/-- A text that is quoted in such a body ends in a literal run. -/
def endsInMark (d : Dialect) (around : Option String) (s : String) : Bool :=
  Quoted.endsInMark d.quote (d.stops (d.textMode around)) s.toList

/-- A text that is quoted in such a body begins with a literal run, except for quotes. -/
def startsInMark (d : Dialect) (around : Option String) (s : String) : Bool :=
  Quoted.startsInMark d.quote (d.stops (d.textMode around)) s.toList

/-- Two texts that are quoted side by side touch with their literal runs. -/
def Touch (d : Dialect) (around : Option String) (s t : String) : Prop :=
  d.endsInMark around s = true ∧ d.startsInMark around t = true

instance (d : Dialect) (around : Option String) (s t : String) : Decidable (d.Touch around s t) :=
  inferInstanceAs (Decidable (_ ∧ _))

/-- What comes back between two texts that are quoted side by side: a quote if they touch. -/
def joint (d : Dialect) (around : Option String) (s t : String) : String :=
  String.ofList (Quoted.seam d.quote (d.endsInMark around s) (d.startsInMark around t))

end Dialect

/-- What comes back of a message with its texts in pieces. -/
def Message.rejoined (d : Dialect) (m : Message) : Message :=
  joined d.joint none m

mutual

/-- No pieces of text touch in the bodies of a node. -/
def Node.Seamless (d : Dialect) : Node → Prop
  | .placeholder _ type _ (some subs) => Submessages.Seamless d type subs
  | .tag _ (some children) => Message.Seamless d none children
  | _ => True

/-- No piece of text in a body touches the text behind it, in however many pieces that is. -/
def Message.Seamless (d : Dialect) (around : Option String) : List Node → Prop
  | [] => True
  | node :: rest =>
      (∀ s, node = .text s → ¬ d.Touch around s (Message.leading rest)) ∧
        Node.Seamless d node ∧ Message.Seamless d around rest

/-- No pieces of text touch in sub-messages. -/
def Submessages.Seamless (d : Dialect) (around : Option String) :
    List (String × List Node) → Prop
  | [] => True
  | (_, body) :: rest =>
      Message.Seamless d around body ∧ Submessages.Seamless d around rest

end

section Attach

variable {joint : String → String → String} {node : Node} {rest rest' : Message}

theorem Node.attach_of_not_text
    (hnode : Message.startsWithText [node] = false) :
    node.attach joint rest = node :: rest := by
  cases node with
  | text s => cases hnode
  | placeholder id type format subs => rfl
  | reference id => rfl
  | tag name children => rfl

theorem Node.text_attach_of_not_text
    {s : String} (hrest : Message.startsWithText rest = false) :
    (Node.text s).attach joint rest = .text s :: rest := by
  match rest with
  | [] => rfl
  | .text t :: rest => cases hrest
  | .placeholder id type format subs :: rest => rfl
  | .reference id :: rest => rfl
  | .tag name children :: rest => rfl

theorem Message.exists_of_startsWithText
    (hrest : Message.startsWithText rest = true) :
    ∃ t tail, rest = .text t :: tail := by
  match rest with
  | .text t :: tail => exact ⟨t, tail, rfl⟩

theorem Message.opening_of_not_text
    (hrest : Message.startsWithText rest = false) :
    Message.opening rest = "" := by
  match rest with
  | [] => rfl
  | .text t :: rest => cases hrest
  | .placeholder id type format subs :: rest => rfl
  | .reference id :: rest => rfl
  | .tag name children :: rest => rfl

theorem Node.startsWithText_attach :
    Message.startsWithText (node.attach joint rest) = Message.startsWithText [node] := by
  cases hnode : Message.startsWithText [node] with
  | false =>
      rw [Node.attach_of_not_text hnode, ← hnode]
      cases node <;> rfl
  | true =>
      obtain ⟨s, _, hs⟩ := Message.exists_of_startsWithText hnode
      cases hs
      cases hrest : Message.startsWithText rest with
      | false =>
          rw [Node.text_attach_of_not_text hrest]
          rfl
      | true =>
          obtain ⟨t, tail, rfl⟩ := Message.exists_of_startsWithText hrest
          rfl

/-- A text that is put in front of a message stands in front of its first text. -/
theorem Node.opening_text_attach
    {s : String} (hjoint : joint s "" = "") :
    Message.opening ((Node.text s).attach joint rest) =
      s ++ joint s (Message.opening rest) ++ Message.opening rest := by
  cases hrest : Message.startsWithText rest with
  | false =>
      rw [Node.text_attach_of_not_text hrest, Message.opening_of_not_text hrest, hjoint]
      simp [Message.opening]
  | true =>
      obtain ⟨t, tail, rfl⟩ := Message.exists_of_startsWithText hrest
      rfl

theorem Node.depth_attach :
    Message.depth (node.attach joint rest) = max node.depth (Message.depth rest) := by
  unfold Node.attach
  split
  · simp [Message.depth, Node.depth]
  · rfl

theorem Node.unmistakable_attach_iff
    {d : Dialect} :
    Message.Unmistakable d (node.attach joint rest) ↔
      node.Unmistakable d ∧ Message.Unmistakable d rest := by
  unfold Node.attach
  split
  · simp [Message.Unmistakable, Node.Unmistakable]
  · rfl

/-- Joining keeps a body well-formed and needs well-formed parts, if it does not join empty text. -/
theorem Node.wellFormed_attach_iff
    {d : Dialect} {owner : Option String}
    (hnode : ∀ s, node = .text s → s ≠ "")
    (hrest : ∀ t tail, rest = .text t :: tail → t ≠ "") :
    Message.WellFormed d owner (node.attach joint rest) ↔
      node.WellFormed d owner ∧ Message.WellFormed d owner rest := by
  unfold Node.attach
  split
  · next s t tail =>
      have hs : s ≠ "" := hnode s rfl
      have ht : t ≠ "" := hrest t tail rfl
      simp [Message.WellFormed, Node.WellFormed, Message.startsWithText, hs, ht]
  · next happart =>
      rw [Message.WellFormed]
      refine and_congr_right fun _ => and_iff_right ?_
      intro htext
      obtain ⟨s, _, hs⟩ := Message.exists_of_startsWithText htext
      cases hs
      cases hstart : Message.startsWithText rest with
      | false => rfl
      | true =>
          obtain ⟨t, tail, rfl⟩ := Message.exists_of_startsWithText hstart
          exact absurd rfl (happart s t tail rfl)

/-- A text joins two messages to the same if it does so without a joint and the messages are the
same, provided that the first text of one is not shorter for a joint. -/
theorem Node.text_attach_eq_iff
    (joint joint' : String → String → String) {s : String}
    (hjoint : joint s "" = "") (hnone : ∀ t, joint' s t = "")
    (hstart : Message.startsWithText rest = Message.startsWithText rest')
    (hlength : (Message.opening rest').length ≤ (Message.opening rest).length) :
    (Node.text s).attach joint rest = (Node.text s).attach joint' rest' ↔
      joint s (Message.opening rest) = "" ∧ rest = rest' := by
  cases hrest : Message.startsWithText rest with
  | false =>
      rw [Node.text_attach_of_not_text hrest, Node.text_attach_of_not_text (hstart ▸ hrest),
        Message.opening_of_not_text hrest]
      simp [hjoint]
  | true =>
      obtain ⟨t, tail, rfl⟩ := Message.exists_of_startsWithText hrest
      obtain ⟨t', tail', rfl⟩ := Message.exists_of_startsWithText (hstart ▸ hrest)
      simp only [Node.attach, Message.opening, List.cons.injEq, Node.text.injEq, hnone,
        String.append_empty, String.append_assoc, String.append_right_inj] at hlength ⊢
      constructor
      · rintro ⟨htext, rfl⟩
        have hempty : joint s t = "" := by
          rw [← String.length_eq_zero_iff]
          have hsum := congrArg String.length htext
          rw [String.length_append] at hsum
          omega
        rw [hempty] at htext
        exact ⟨hempty, by simpa using htext, rfl⟩
      · rintro ⟨hempty, rfl, rfl⟩
        simp [hempty]

end Attach

section Joined

attribute [local simp] Node.joined Message.joined Submessages.joined

variable {joint : Option String → String → String → String}

theorem Node.startsWithText_joined
    (joint : Option String → String → String → String) (node : Node) :
    Message.startsWithText [node.joined joint] = Message.startsWithText [node] := by
  cases node with
  | text s => rfl
  | placeholder id type format subs => cases subs <;> rfl
  | reference id => rfl
  | tag name children => cases children <;> rfl

theorem Message.startsWithText_joined
    (joint : Option String → String → String → String) (around : Option String) (m : Message) :
    startsWithText (joined joint around m) = startsWithText m := by
  cases m with
  | nil => rfl
  | cons node rest =>
      rw [joined, Node.startsWithText_attach, Node.startsWithText_joined]
      cases node <;> rfl

theorem Message.joined_cons_ne_nil
    (joint : Option String → String → String → String) (around : Option String)
    (node : Node) (rest : Message) :
    joined joint around (node :: rest) ≠ [] := by
  rw [joined]
  unfold Node.attach
  split
  · simp
  · simp

theorem Node.joined_eq_text_iff
    {node : Node} {s : String} :
    node.joined joint = .text s ↔ node = .text s := by
  cases node with
  | text t => simp
  | placeholder id type format subs => cases subs <;> simp
  | reference id => simp
  | tag name children => cases children <;> simp

/-- The first text is not empty if no piece is. -/
theorem Message.joined_text_ne_empty
    {around : Option String} {m rest : Message} {t : String} (hm : Solid m)
    (h : joined joint around m = .text t :: rest) :
    t ≠ "" := by
  cases m with
  | nil => cases h
  | cons node tail =>
      rw [joined] at h
      unfold Node.attach at h
      split at h
      · next s t' rest' hnode _ =>
          obtain rfl := Node.joined_eq_text_iff.mp hnode
          have hs : s ≠ "" := hm.1
          rw [← Node.text.inj (List.cons.inj h).1]
          simp [hs]
      · obtain rfl := Node.joined_eq_text_iff.mp (List.cons.inj h).1
        exact hm.1

theorem Submessages.map_fst_joined
    (joint : Option String → String → String → String) (around : Option String)
    (subs : Submessages) :
    (joined joint around subs).map Prod.fst = subs.map Prod.fst := by
  induction subs with
  | nil => rfl
  | cons entry rest ih =>
      obtain ⟨selector, body⟩ := entry
      rw [joined, List.map_cons, List.map_cons, ih]

theorem Submessages.isComplete_joined
    (joint : Option String → String → String → String) (around : Option String)
    (subs : Submessages) (selector : String) :
    Submessages.isComplete (joined joint around subs) selector =
      Submessages.isComplete subs selector := by
  induction subs with
  | nil => rfl
  | cons entry rest ih =>
      obtain ⟨selector', body⟩ := entry
      simp only [isComplete, List.any_cons, joined] at ih ⊢
      rw [ih]

mutual

theorem Node.depth_joined
    (joint : Option String → String → String → String) (node : Node) :
    (node.joined joint).depth = node.depth := by
  match node with
  | .text s => rfl
  | .placeholder id type format none => rfl
  | .placeholder id type format (some subs) => exact Submessages.depth_joined joint type subs
  | .reference id => rfl
  | .tag name none => rfl
  | .tag name (some []) => rfl
  | .tag name (some (child :: rest)) =>
      have hchildren := Message.depth_joined joint none (child :: rest)
      obtain ⟨child', rest', hjoined⟩ :=
        List.exists_cons_of_ne_nil (Message.joined_cons_ne_nil joint none child rest)
      rw [hjoined, Message.depth, Message.depth] at hchildren
      rw [Node.joined, hjoined, Node.depth, Node.depth, hchildren]

theorem Message.depth_joined
    (joint : Option String → String → String → String) (around : Option String)
    (m : List Node) :
    Message.depth (Message.joined joint around m) = Message.depth m := by
  match m with
  | [] => rfl
  | node :: rest =>
      rw [Message.joined, Node.depth_attach, Node.depth_joined joint node,
        Message.depth_joined joint around rest, Message.depth]

theorem Submessages.depth_joined
    (joint : Option String → String → String → String) (around : Option String)
    (subs : List (String × List Node)) :
    Submessages.depth (Submessages.joined joint around subs) = Submessages.depth subs := by
  match subs with
  | [] => rfl
  | (selector, body) :: rest =>
      rw [Submessages.joined, Submessages.depth, Submessages.depth,
        Message.depth_joined joint around body, Submessages.depth_joined joint around rest]

end

mutual

theorem Node.unmistakable_joined_iff
    {d : Dialect} (joint : Option String → String → String → String) (node : Node) :
    (node.joined joint).Unmistakable d ↔ node.Unmistakable d := by
  match node with
  | .text s => rfl
  | .placeholder id type format none => rfl
  | .placeholder id none format (some subs) =>
      exact Submessages.unmistakable_joined_iff joint none subs
  | .placeholder id (some type) format (some []) => rfl
  | .placeholder id (some type) format (some ((selector, body) :: rest)) =>
      have hsubs := Submessages.unmistakable_joined_iff (d := d) joint (some type)
        ((selector, body) :: rest)
      rw [Submessages.joined] at hsubs
      simp only [Node.joined, Submessages.joined, Node.Unmistakable, hsubs, List.head?_cons,
        Option.some.injEq, forall_eq']
  | .reference id => rfl
  | .tag name none => rfl
  | .tag name (some children) => exact Message.unmistakable_joined_iff joint none children

theorem Message.unmistakable_joined_iff
    {d : Dialect} (joint : Option String → String → String → String) (around : Option String)
    (m : List Node) :
    Message.Unmistakable d (Message.joined joint around m) ↔ Message.Unmistakable d m := by
  match m with
  | [] => rfl
  | node :: rest =>
      rw [Message.joined, Node.unmistakable_attach_iff, Node.unmistakable_joined_iff joint node,
        Message.unmistakable_joined_iff joint around rest, Message.Unmistakable]

theorem Submessages.unmistakable_joined_iff
    {d : Dialect} (joint : Option String → String → String → String) (around : Option String)
    (subs : List (String × List Node)) :
    Submessages.Unmistakable d (Submessages.joined joint around subs) ↔
      Submessages.Unmistakable d subs := by
  match subs with
  | [] => rfl
  | (selector, body) :: rest =>
      rw [Submessages.joined, Submessages.Unmistakable, Submessages.Unmistakable,
        Message.unmistakable_joined_iff joint around body,
        Submessages.unmistakable_joined_iff joint around rest]

end

mutual

theorem Node.WellFormed.rejoined
    {d : Dialect} {owner : Option String} {joint joint' : Option String → String → String → String}
    (node : Node) (hsolid : node.Solid) (h : (node.joined joint).WellFormed d owner) :
    (node.joined joint').WellFormed d owner := by
  match node with
  | .text s => exact h
  | .placeholder id none format none => exact h
  | .placeholder id (some type) format none => exact h
  | .placeholder id none format (some subs) =>
      obtain ⟨_, _, hsubs⟩ := h
      cases hsubs
  | .placeholder id (some type) format (some subs) =>
      obtain ⟨hid, htype, hbranching, hformat, hcomplete, hnodup, hsubs⟩ := h
      rw [Submessages.isComplete_joined] at hcomplete
      rw [Submessages.map_fst_joined] at hnodup
      refine ⟨hid, htype, hbranching, hformat, ?_, ?_,
        Submessages.WellFormed.rejoined subs hsolid hsubs⟩
      · rwa [Submessages.isComplete_joined]
      · rwa [Submessages.map_fst_joined]
  | .reference id => exact h
  | .tag name none => exact h
  | .tag name (some []) => exact h
  | .tag name (some (child :: rest)) =>
      obtain ⟨htags, hname, _, hchildren⟩ := h
      exact ⟨htags, hname, Message.joined_cons_ne_nil joint' none child rest,
        Message.WellFormed.rejoined (child :: rest) hsolid hchildren⟩

theorem Message.WellFormed.rejoined
    {d : Dialect} {owner around : Option String}
    {joint joint' : Option String → String → String → String}
    (m : List Node) (hsolid : Message.Solid m)
    (h : Message.WellFormed d owner (Message.joined joint around m)) :
    Message.WellFormed d owner (Message.joined joint' around m) := by
  match m with
  | [] => trivial
  | node :: rest =>
      obtain ⟨hnode, hrest⟩ := hsolid
      have hparts : ∀ joint,
          Message.WellFormed d owner (Message.joined joint around (node :: rest)) ↔
          (node.joined joint).WellFormed d owner ∧
            Message.WellFormed d owner (Message.joined joint around rest) := by
        intro joint
        rw [Message.joined, Node.wellFormed_attach_iff]
        · intro s hs
          obtain rfl := Node.joined_eq_text_iff.mp hs
          exact hnode
        · intro t tail ht
          exact Message.joined_text_ne_empty hrest ht
      obtain ⟨hnodeWell, hrestWell⟩ := (hparts joint).mp h
      exact (hparts joint').mpr ⟨Node.WellFormed.rejoined node hnode hnodeWell,
        Message.WellFormed.rejoined rest hrest hrestWell⟩

theorem Submessages.WellFormed.rejoined
    {d : Dialect} {owner around : Option String}
    {joint joint' : Option String → String → String → String}
    (subs : List (String × List Node)) (hsolid : Submessages.Solid subs)
    (h : Submessages.WellFormed d owner (Submessages.joined joint around subs)) :
    Submessages.WellFormed d owner (Submessages.joined joint' around subs) := by
  match subs with
  | [] => trivial
  | (selector, body) :: rest =>
      obtain ⟨hbody, hrest⟩ := hsolid
      obtain ⟨hselector, hbodyWell, hrestWell⟩ := h
      exact ⟨hselector, Message.WellFormed.rejoined body hbody hbodyWell,
        Submessages.WellFormed.rejoined rest hrest hrestWell⟩

end

end Joined

namespace Dialect

variable {d : Dialect} {around : Option String}

theorem joint_empty
    (s : String) :
    d.joint around s "" = "" := by
  simp [joint, startsInMark, Quoted.startsInMark, Quoted.seam]

theorem joint_eq_empty_iff
    {s t : String} :
    d.joint around s t = "" ↔ ¬ d.Touch around s t := by
  simp [joint, Touch, Quoted.seam]

theorem startsInMark_append
    {s t t' : String} (h : d.startsInMark around t = d.startsInMark around t') :
    d.startsInMark around (s ++ t) = d.startsInMark around (s ++ t') := by
  simp only [startsInMark, Quoted.startsInMark] at h
  simp [startsInMark, Quoted.startsInMark, h]

/-- What comes back between two texts does not change how they start. -/
theorem startsInMark_append_joint
    (s t : String) :
    d.startsInMark around (s ++ d.joint around s t ++ t) = d.startsInMark around (s ++ t) := by
  have hseam := Quoted.startsInMark_append_seam d.quote (d.stops (d.textMode around))
    (d.endsInMark around s) (d.startsInMark around t) s.toList t.toList
  simpa [startsInMark, joint] using hseam

end Dialect

namespace Message

theorem leading_of_not_text
    {m : Message} (hm : startsWithText m = false) :
    leading m = "" := by
  match m with
  | [] => rfl
  | .text t :: rest => cases hm
  | .placeholder id type format subs :: rest => rfl
  | .reference id :: rest => rfl
  | .tag name children :: rest => rfl

/-- The first text that comes back starts like all the pieces that it is made of. -/
theorem startsInMark_opening
    (d : Dialect) (around : Option String) (m : Message) :
    d.startsInMark around (opening (joined d.joint around m)) =
      d.startsInMark around (leading m) := by
  induction m with
  | nil => rfl
  | cons node rest ih =>
      cases hnode : startsWithText (node :: rest) with
      | false =>
          rw [leading_of_not_text hnode, opening_of_not_text]
          rw [startsWithText_joined, hnode]
      | true =>
          obtain ⟨s, _, hs⟩ := exists_of_startsWithText hnode
          cases hs
          rw [joined, Node.joined, Node.opening_text_attach (Dialect.joint_empty s), leading,
            Dialect.startsInMark_append_joint]
          exact Dialect.startsInMark_append ih

/-- A joint does not make the first text shorter. -/
theorem length_opening_le
    {joint : Option String → String → String → String} {around : Option String}
    (hjoint : ∀ s, joint around s "" = "") (m : Message) :
    (opening (joined noJoint around m)).length ≤ (opening (joined joint around m)).length := by
  induction m with
  | nil => exact Nat.le_refl _
  | cons node rest ih =>
      cases hnode : startsWithText (node :: rest) with
      | false =>
          rw [opening_of_not_text (by rw [startsWithText_joined, hnode])]
          exact Nat.zero_le _
      | true =>
          obtain ⟨s, _, hs⟩ := exists_of_startsWithText hnode
          cases hs
          rw [joined, joined, Node.joined, Node.joined, Node.opening_text_attach (hjoint s),
            Node.opening_text_attach rfl]
          simp only [noJoint, String.length_append, String.length_empty]
          omega

end Message

mutual

theorem Node.joined_eq_iff
    (d : Dialect) (node : Node) :
    node.joined d.joint = node.joined Message.noJoint ↔ node.Seamless d := by
  match node with
  | .text s => simp [Node.joined, Node.Seamless]
  | .placeholder id type format none => simp [Node.joined, Node.Seamless]
  | .placeholder id type format (some subs) =>
      simp [Node.joined, Node.Seamless, Submessages.joined_eq_iff d type subs]
  | .reference id => simp [Node.joined, Node.Seamless]
  | .tag name none => simp [Node.joined, Node.Seamless]
  | .tag name (some children) =>
      simp [Node.joined, Node.Seamless, Message.joined_eq_iff d none children]

theorem Message.joined_eq_iff
    (d : Dialect) (around : Option String) (m : List Node) :
    Message.joined d.joint around m = Message.joined Message.noJoint around m ↔
      Message.Seamless d around m := by
  match m with
  | [] => simp [Message.joined, Message.Seamless]
  | node :: rest =>
      have hnode := Node.joined_eq_iff d node
      have hrest := Message.joined_eq_iff d around rest
      rw [Message.joined, Message.joined, Message.Seamless, ← hnode, ← hrest]
      cases htext : Message.startsWithText [node] with
      | false =>
          have hplain : ∀ joint, Message.startsWithText [node.joined joint] = false := by
            intro joint
            rw [Node.startsWithText_joined, htext]
          rw [Node.attach_of_not_text (hplain _), Node.attach_of_not_text (hplain _),
            List.cons.injEq]
          refine (and_iff_right ?_).symm
          rintro s rfl
          cases htext
      | true =>
          obtain ⟨s, _, hs⟩ := Message.exists_of_startsWithText htext
          cases hs
          have htouch :
              d.joint around s (Message.opening (Message.joined d.joint around rest)) = "" ↔
              ¬ d.Touch around s (Message.leading rest) := by
            rw [Dialect.joint_eq_empty_iff, Dialect.Touch, Dialect.Touch,
              Message.startsInMark_opening]
          have hstart : Message.startsWithText (Message.joined d.joint around rest) =
              Message.startsWithText (Message.joined Message.noJoint around rest) := by
            rw [Message.startsWithText_joined, Message.startsWithText_joined]
          have hlength : (Message.opening (Message.joined Message.noJoint around rest)).length ≤
              (Message.opening (Message.joined d.joint around rest)).length :=
            Message.length_opening_le Dialect.joint_empty rest
          have hattach := Node.text_attach_eq_iff (d.joint around) (Message.noJoint around)
            (Dialect.joint_empty s) (fun _ => rfl) hstart hlength
          rw [htouch] at hattach
          simpa [Node.joined] using hattach

theorem Submessages.joined_eq_iff
    (d : Dialect) (around : Option String) (subs : List (String × List Node)) :
    Submessages.joined d.joint around subs = Submessages.joined Message.noJoint around subs ↔
      Submessages.Seamless d around subs := by
  match subs with
  | [] => simp [Submessages.joined, Submessages.Seamless]
  | (selector, body) :: rest =>
      simp [Submessages.joined, Submessages.Seamless, Message.joined_eq_iff d around body,
        Submessages.joined_eq_iff d around rest]

end

/-- A message in pieces comes back as the message that was cut exactly if no two pieces touch. -/
theorem Message.Pieces.rejoined_eq_iff
    {m pieces : Message} (h : m.Pieces pieces) (d : Dialect) :
    pieces.rejoined d = m ↔ Message.Seamless d none pieces := by
  rw [← h.merged_eq, ← Message.joined_eq_iff]
  rfl

end MessageFormat
