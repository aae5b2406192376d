import MessageFormat.Proofs.Pieces.Joining
import MessageFormat.Proofs.Reread

/-!
# Text in pieces

The texts of a message may be cut to pieces, and the pieces then stand side by side. Writing
quotes each piece by itself, and cannot tell them from the text that they come back as
(`writeNodes_joined`). So a message in pieces is written whenever the message that was cut is,
and it is always read: as the message with the pieces put together, and with a quote between two
of them that touch.

It is read as the message that was cut exactly if no two pieces touch
(`Reader.readValue_pieces_iff`). Pieces that do touch are a fault of writing, which promises
that neighbouring texts come back as one.
-/

namespace MessageFormat

namespace Dialect

variable {d : Dialect} {owner around : Option String}

/-- In the sub-messages of a placeholder, text is quoted as the type of the placeholder asks for. -/
theorem modeOf_ownerOf
    (d : Dialect) (id : String) (type : Option String) :
    modeOf (type.bind (d.ownerOf id)) = d.textMode type := by
  cases type with
  | none => rfl
  | some type =>
      cases htype : d.isNumeric type with
      | true => simp [modeOf, ownerOf, textMode, htype]
      | false => simp [modeOf, ownerOf, textMode, htype]

/-- Two texts that are written side by side are written like one, with a quote if they touch. -/
theorem spell_append_joint
    (d : Dialect) (around : Option String) (s t : String) :
    d.spell (d.textMode around) s ++ d.spell (d.textMode around) t =
      d.spell (d.textMode around) (s ++ d.joint around s t ++ t) := by
  have hspell := Quoted.spell_append d.quote (d.stops (d.textMode around)) s.toList t.toList
  simp only [spell, ← String.ofList_append, hspell]
  simp [joint, endsInMark, startsInMark]

/-- Writing does not see whether text was attached or stands in front. -/
theorem writeNodes_attach
    (g : Guard) (hmode : modeOf owner = d.textMode around) (node : Node) (rest : Message) :
    d.writeNodes g owner (node.attach (d.joint around) rest) =
      d.writeNodes g owner (node :: rest) := by
  unfold Node.attach
  split
  · next s t tail =>
      simp only [writeNodes, writeNode, hmode, ← spell_append_joint]
      cases d.writeNodes g owner tail with
      | error fault => rfl
      | ok text => simp [bind, Except.bind, pure, Except.pure, String.append_assoc]
  · rfl

mutual

theorem writeNode_joined
    (d : Dialect) (g : Guard) (owner : Option String) (node : Node) :
    d.writeNode g owner (node.joined d.joint) = d.writeNode g owner node := by
  match node with
  | .text s => rfl
  | .placeholder id type format none => rfl
  | .placeholder id type format (some subs) =>
      rw [Node.joined, writeNode, writeNode, Submessages.isComplete_joined,
        writeSubmessages_joined d g (d.modeOf_ownerOf id type) subs]
  | .reference id => rfl
  | .tag name none => rfl
  | .tag name (some []) => rfl
  | .tag name (some (child :: rest)) =>
      obtain ⟨child', rest', hjoined⟩ :=
        List.exists_cons_of_ne_nil (Message.joined_cons_ne_nil d.joint none child rest)
      have hchildren : ∀ inner, d.writeNodes inner none (child' :: rest') =
          d.writeNodes inner none (child :: rest) := by
        intro inner
        rw [← hjoined]
        exact writeNodes_joined d inner rfl (child :: rest)
      simp only [writeNodes] at hchildren
      rw [Node.joined, hjoined, writeNode, writeNode]
      simp only [hchildren]

theorem writeNodes_joined
    (d : Dialect) (g : Guard) {owner around : Option String}
    (hmode : modeOf owner = d.textMode around) (m : List Node) :
    d.writeNodes g owner (Message.joined d.joint around m) = d.writeNodes g owner m := by
  match m with
  | [] => rfl
  | node :: rest =>
      rw [Message.joined, writeNodes_attach g hmode, writeNodes, writeNodes,
        writeNode_joined d g owner node, writeNodes_joined d g hmode rest]

theorem writeSubmessages_joined
    (d : Dialect) (g : Guard) {owner around : Option String}
    (hmode : modeOf owner = d.textMode around) (subs : List (String × List Node)) :
    d.writeSubmessages g owner (Submessages.joined d.joint around subs) =
      d.writeSubmessages g owner subs := by
  match subs with
  | [] => rfl
  | (selector, body) :: rest =>
      have hbody : ∀ inner, d.writeNodes inner owner (Message.joined d.joint around body) =
          d.writeNodes inner owner body :=
        fun inner => writeNodes_joined d inner hmode body
      rw [Submessages.joined, writeSubmessages, writeSubmessages,
        writeSubmessages_joined d g hmode rest]
      simp only [hbody]

end

/-- A message in pieces is written like the message that it comes back as. -/
theorem serialize_rejoined
    (d : Dialect) (limit : Int) (m : Message) :
    d.serialize limit (m.rejoined d) = d.serialize limit m :=
  writeNodes_joined d { limit := limit } rfl m

end Dialect

/-- With standard settings and no size limit, a message that is read back from what is written may
have its texts cut to pieces: it is still written, it comes back with a quote between pieces that
touch, and so it comes back as it was before exactly if no two pieces touch. -/
theorem Reader.readValue_pieces_iff
    (frames : Int) (m pieces : Message) (text : String) (r : Reader)
    (hmake : (Reader.make frames (.settings .null) (.dict []) (some 0) none).outcome = .ok r)
    (hwritten : (Dialect.standard.serializeOnStack frames m.toValue).outcome = .ok text)
    (hread : (r.readValue (.str text)).outcome = .ok m)
    (hpieces : m.Pieces pieces) :
    ∃ text',
      (Dialect.standard.serializeOnStack frames pieces.toValue).outcome = .ok text' ∧
      (r.readValue (.str text')).outcome = .ok (pieces.rejoined .standard) ∧
      ((r.readValue (.str text')).outcome = .ok m ↔
        Message.Seamless .standard none pieces) := by
  rw [Reader.make_outcome dialectOf_null, Option.getD_some, Option.getD_none] at hmake
  cases hmake
  have hlimit : 1 ≤ clampDepth frames standardReserve standardDepth :=
    clampDepth_pos (by decide)
  have hwell : Message.WellFormed .standard none m := Reader.readValue_wellFormed _ _ _ hread
  have hdepth : (Message.depth m : Int) ≤ clampDepth frames standardReserve standardDepth := by
    have hnested := Reader.depth_le_of_readValue hread
    dsimp only at hnested
    omega
  rw [Dialect.standard.serializeOnStack_outcome, Dialect.serialize_eq hwell hdepth] at hwritten
  cases hwritten
  have hclear := (Reader.readValue_spell_iff rfl Dialect.standard_ordinary hwell hdepth).mp hread
  -- The joined pieces have the shape of the message, so they are read like it.
  obtain ⟨hsolid, rfl⟩ := hpieces
  have hwell' : Message.WellFormed .standard none (pieces.rejoined .standard) :=
    Message.WellFormed.rejoined pieces hsolid hwell
  have hdepth' : (Message.depth (pieces.rejoined .standard) : Int) ≤
      clampDepth frames standardReserve standardDepth := by
    rwa [Message.rejoined, Message.depth_joined, ← Message.depth_joined Message.noJoint none]
  have hclear' : Message.Unmistakable .standard (pieces.rejoined .standard) := by
    rwa [Message.rejoined, Message.unmistakable_joined_iff,
      ← Message.unmistakable_joined_iff Message.noJoint none]
  have hread' : ((⟨.standard, 0, clampDepth frames standardReserve standardDepth⟩ :
      Reader).readValue (.str (String.ofList
        (Message.spell .standard none (pieces.rejoined .standard) [])))).outcome =
          .ok (pieces.rejoined .standard) :=
    (Reader.readValue_spell_iff rfl Dialect.standard_ordinary hwell' hdepth').mpr hclear'
  refine ⟨_, ?_, hread', ?_⟩
  · rw [Dialect.standard.serializeOnStack_outcome, ← Dialect.serialize_rejoined,
      Dialect.serialize_eq hwell' hdepth']
    rfl
  · rw [hread', Except.ok.injEq]
    exact Message.Pieces.rejoined_eq_iff ⟨hsolid, rfl⟩ .standard

/-- A message that starts with two braces, and has a quoted reference sign in a sub-message. -/
def bracesMessage : Message :=
  [.text "\x7b\x7b", .placeholder "n" (some "plural") none (some [("other", [.text "#a"])])]

/-- Its texts are cut between the braces and behind the reference sign. -/
def bracesPieces : Message :=
  [.text "\x7b", .text "\x7b", .placeholder "n" (some "plural") none
    (some [("other", [.text "#", .text "a"])])]

/-- The braces touch, so a quote comes back between them. -/
theorem Reader.readValue_pieces_iff_braces :
    (Reader.make 1000 (.settings .null) (.dict []) (some 0) none).outcome =
        .ok ⟨.standard, 0, 100⟩ ∧
      (Dialect.standard.serializeOnStack 1000 (Message.toValue bracesMessage)).outcome =
        .ok "'\x7b\x7b'\x7bn, plural, other \x7b'#'a\x7d\x7d" ∧
      ((⟨.standard, 0, 100⟩ : Reader).readValue
        (.str "'\x7b\x7b'\x7bn, plural, other \x7b'#'a\x7d\x7d")).outcome = .ok bracesMessage ∧
      Message.Pieces bracesMessage bracesPieces ∧
      ¬ Message.Seamless .standard none bracesPieces ∧
      ∃ text',
        (Dialect.standard.serializeOnStack 1000 (Message.toValue bracesPieces)).outcome =
          .ok text' ∧
        ((⟨.standard, 0, 100⟩ : Reader).readValue (.str text')).outcome =
          .ok (bracesPieces.rejoined .standard) ∧
        (((⟨.standard, 0, 100⟩ : Reader).readValue (.str text')).outcome = .ok bracesMessage ↔
          Message.Seamless .standard none bracesPieces) := by
  have hmake : (Reader.make 1000 (.settings .null) (.dict []) (some 0) none).outcome =
      .ok ⟨.standard, 0, 100⟩ := by
    rw [Reader.make_outcome dialectOf_null]
    rfl
  have hwritten : (Dialect.standard.serializeOnStack 1000 (Message.toValue bracesMessage)).outcome =
      .ok "'\x7b\x7b'\x7bn, plural, other \x7b'#'a\x7d\x7d" := by
    decide +kernel
  have hread : ((⟨.standard, 0, 100⟩ : Reader).readValue
      (.str "'\x7b\x7b'\x7bn, plural, other \x7b'#'a\x7d\x7d")).outcome = .ok bracesMessage := by
    decide +kernel
  have hpieces : Message.Pieces bracesMessage bracesPieces := by
    constructor
    · simp [bracesPieces, Message.Solid, Node.Solid, Submessages.Solid]
    · decide
  have htouch : ¬ Message.Seamless .standard none bracesPieces := by
    rintro ⟨happart, _⟩
    exact happart "\x7b" rfl (by decide)
  exact ⟨hmake, hwritten, hread, hpieces, htouch,
    readValue_pieces_iff 1000 _ _ _ _ hmake hwritten hread hpieces⟩

/-- Not every message in pieces comes back as the message that was cut. -/
theorem Reader.not_readValue_pieces :
    ¬ ∀ (m pieces : Message) (text : String),
      (Dialect.standard.serializeOnStack 1000 m.toValue).outcome = .ok text →
        ((⟨.standard, 0, 100⟩ : Reader).readValue (.str text)).outcome = .ok m →
          m.Pieces pieces →
            ∃ text',
              (Dialect.standard.serializeOnStack 1000 pieces.toValue).outcome = .ok text' ∧
              ((⟨.standard, 0, 100⟩ : Reader).readValue (.str text')).outcome = .ok m := by
  intro hall
  have hpieces : Message.Pieces [.text "\x7b\x7b"] [.text "\x7b", .text "\x7b"] := by
    constructor
    · simp [Message.Solid, Node.Solid]
    · decide
  obtain ⟨text', hwritten, hread⟩ := hall [.text "\x7b\x7b"] _ "'\x7b\x7b'" (by decide +kernel)
    (by decide +kernel) hpieces
  have htext : (Dialect.standard.serializeOnStack 1000
      (Message.toValue [.text "\x7b", .text "\x7b"])).outcome = .ok "'\x7b''\x7b'" := by
    decide +kernel
  cases htext.symm.trans hwritten
  have hlost : ((⟨.standard, 0, 100⟩ : Reader).readValue (.str "'\x7b''\x7b'")).outcome ≠
      .ok [.text "\x7b\x7b"] := by
    decide +kernel
  exact hlost hread

end MessageFormat
