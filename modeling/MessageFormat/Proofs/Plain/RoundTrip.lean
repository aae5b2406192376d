import MessageFormat.Proofs.Plain.Reading

/-!
# Messages as plain data and back

Reading the plain data of a message gives that message (`toNodes_ofNodes`), whatever its text,
ids and formats are, with its selectors in their order and with the content of a tag that is
empty kept apart from no content. Only the nesting limit keeps a message from being turned into
plain data, and reading enters the same bodies, so there and back is either too deep or the same
message (`Message.plain_roundTrip`).

Reading gives a message exactly for the data of the schema that is within the nesting limit, and
that message goes there and back (`Plain.toMessageOnStack_accepts`).
-/

namespace MessageFormat

namespace Plain

section Fields

variable {g : Guard} {id : String} {type : Option String} {format : Option Format}

/-- A placeholder without sub-messages is read back from its fields. -/
theorem toNode_placeholder
    (g : Guard) (id : String) (type : Option String) (format : Option Format) :
    toNode g (placeholder (.str id) (type.elim .null .str) (format.elim .null Format.toValue)
      none) = .ok (.placeholder id type format none) := by
  cases type with
  | none =>
      cases format with
      | none => rfl
      | some f => cases f <;> rfl
  | some t =>
      cases format with
      | none => rfl
      | some f => cases f <;> rfl

/-- With sub-messages, these are read back too. -/
theorem toNode_placeholder_dict
    {entries : List (Value × Value)} {subs : Submessages} (h : toSubmessages g entries = .ok subs) :
    toNode g (placeholder (.str id) (type.elim .null .str) (format.elim .null Format.toValue)
      (some (.dict entries))) = .ok (.placeholder id type format (some subs)) := by
  have hread : toNode g (placeholder (.str id) (type.elim .null .str)
      (format.elim .null Format.toValue) (some (.dict entries))) =
        (toSubmessages g entries >>= fun subs => pure (some subs)) >>= fun subs =>
          pure (.placeholder id type format subs) := by
    cases type with
    | none =>
        cases format with
        | none => rfl
        | some f => cases f <;> rfl
    | some t =>
        cases format with
        | none => rfl
        | some f => cases f <;> rfl
  rw [hread, h]
  rfl

/-- The content of a tag is read back one level deeper. -/
theorem toNode_tag_list
    {name : String} {items : List Value} {inner : Guard} {children : Message}
    (henter : g.enterPlain = .ok inner) (h : toNodes inner items = .ok children) :
    toNode g (tag (.str name) (some (.list items))) = .ok (.tag name (some children)) := by
  have hread : toNode g (tag (.str name) (some (.list items))) =
      (g.enterPlain >>= fun inner => toNodes inner items >>= fun children =>
        pure (some children)) >>= fun children => pure (.tag name children) := by
    rfl
  rw [hread, henter]
  change (toNodes inner items >>= _) >>= _ = _
  rw [h]
  rfl

end Fields

theorem bind_eq_ok
    {ε α β : Type} {x : Except ε α} {f : α → Except ε β} {b : β} (h : x >>= f = .ok b) :
    ∃ a, x = .ok a ∧ f a = .ok b := by
  cases x with
  | error e => cases h
  | ok a => exact ⟨a, rfl, h⟩

mutual

theorem toNode_ofNode
    (g : Guard) (node : Node) (v : Value) (h : ofNode g node = .ok v) :
    toNode g v = .ok node := by
  match node with
  | .text s =>
      cases h
      rfl
  | .placeholder id type format none =>
      cases h
      exact toNode_placeholder g id type format
  | .placeholder id type format (some subs) =>
      rw [ofNode] at h
      obtain ⟨entries, hentries, hv⟩ := bind_eq_ok h
      cases hv
      exact toNode_placeholder_dict (toSubmessages_ofSubmessages g subs entries hentries)
  | .reference id =>
      cases h
      rfl
  | .tag name none =>
      cases h
      rfl
  | .tag name (some children) =>
      rw [ofNode] at h
      obtain ⟨inner, henter, h⟩ := bind_eq_ok h
      obtain ⟨items, hitems, hv⟩ := bind_eq_ok h
      cases hv
      exact toNode_tag_list henter (toNodes_ofNodes inner children items hitems)

theorem toNodes_ofNodes
    (g : Guard) (m : List Node) (items : List Value) (h : ofNodes g m = .ok items) :
    toNodes g items = .ok m := by
  match m with
  | [] =>
      cases h
      rfl
  | node :: rest =>
      rw [ofNodes] at h
      obtain ⟨v, hv, h⟩ := bind_eq_ok h
      obtain ⟨vs, hvs, hitems⟩ := bind_eq_ok h
      cases hitems
      rw [toNodes, toNode_ofNode g node v hv, toNodes_ofNodes g rest vs hvs]
      rfl

theorem toSubmessages_ofSubmessages
    (g : Guard) (subs : List (String × List Node)) (entries : List (Value × Value))
    (h : ofSubmessages g subs = .ok entries) :
    toSubmessages g entries = .ok subs := by
  match subs with
  | [] =>
      cases h
      rfl
  | (selector, body) :: rest =>
      rw [ofSubmessages] at h
      obtain ⟨inner, henter, h⟩ := bind_eq_ok h
      obtain ⟨items, hitems, h⟩ := bind_eq_ok h
      obtain ⟨others, hothers, hentries⟩ := bind_eq_ok h
      cases hentries
      rw [toSubmessages, henter, toSubmessages_ofSubmessages g rest others hothers]
      change toNodes inner items >>= _ = _
      rw [toNodes_ofNodes inner body items hitems]
      rfl

end

/-- Reading the plain data of a message gives that message. -/
theorem toMessage_ofMessage
    {limit : Int} {m : Message} {v : Value} (h : ofMessage limit m = .ok v) :
    toMessage limit v = .ok m := by
  unfold ofMessage at h
  cases hitems : ofNodes { limit := limit } m with
  | error e =>
      rw [hitems] at h
      cases h
  | ok items =>
      rw [hitems] at h
      cases h
      exact toNodes_ofNodes _ m items hitems

/-- On a stack of so many frames, plain data is read within the limit that fits the stack. -/
theorem toMessageOnStack_outcome
    (frames : Int) (v : Value) :
    (toMessageOnStack frames v).outcome =
      (toMessage (clampDepth frames standardReserve standardDepth) v).mapError
        PlainFault.toFault := by
  have hclamp := clampDepthLogged_outcome frames standardReserve standardDepth
  simp only [toMessageOnStack, bind, Logged.andThen, hclamp]
  rfl

/-- A message within the limit is turned into plain data, which is read back. -/
theorem exists_plain
    {frames : Int} {m : Message}
    (hlevels : Message.levels m ≤ clampDepth frames standardReserve standardDepth) :
    ∃ v, (ofAnythingOnStack frames m.toValue).outcome = .ok v ∧
      (toMessageOnStack frames v).outcome = .ok m := by
  have hbounds := ofMessage_levels (clampDepth_nonneg frames) m
  obtain ⟨v, hv⟩ := hbounds.eq_ok trivial (by simpa using hlevels)
  refine ⟨v, ?_, ?_⟩
  · rw [ofAnythingOnStack_outcome, hv]
    rfl
  · rw [toMessageOnStack_outcome, toMessage_ofMessage hv]
    rfl

end Plain

/-- A message is too deep to be turned into plain data, or reading its plain data gives the message
back. -/
theorem Message.plain_roundTrip
    (frames : Int) (m : Message) :
    (clampDepth frames standardReserve standardDepth < Message.levels m ∧
        TooDeep (Plain.ofAnythingOnStack frames m.toValue).outcome) ∨
      ∃ v, (Plain.ofAnythingOnStack frames m.toValue).outcome = .ok v ∧
        (Plain.toMessageOnStack frames v).outcome = .ok m := by
  by_cases hdeep : clampDepth frames standardReserve standardDepth < Message.levels m
  · have hbounds := Plain.ofMessage_levels (clampDepth_nonneg frames) m
    refine Or.inl ⟨hdeep, ?_⟩
    rw [Plain.ofAnythingOnStack_outcome, hbounds.tooDeep_iff PlainFault.isTooDeep_iff trivial]
    simpa using hdeep
  · exact Or.inr (Plain.exists_plain (Int.not_lt.mp hdeep))

namespace Plain

/-- Reading plain data gives a message exactly for the data of the schema within the nesting limit.
The message has no selector twice if no dictionary of the data has a key twice, and it is read back
from its own plain data. -/
theorem toMessageOnStack_accepts
    (frames : Int) (v : Value) :
    ((∃ m, (toMessageOnStack frames v).outcome = .ok m) ↔
        IsBody v ∧ bodyLevels v ≤ clampDepth frames standardReserve standardDepth) ∧
      ∀ m, (toMessageOnStack frames v).outcome = .ok m →
        (v.Keyed → m.toValue.Keyed) ∧
          ∃ plain, (ofAnythingOnStack frames m.toValue).outcome = .ok plain ∧
            (toMessageOnStack frames plain).outcome = .ok m := by
  obtain ⟨hbounds, hresult⟩ := toBody_answers
    { limit := clampDepth frames standardReserve standardDepth } (clampDepth_nonneg frames) v
  have hread : ∀ (v : Value) (m : Message), (toMessageOnStack frames v).outcome = .ok m ↔
      toBody { limit := clampDepth frames standardReserve standardDepth } v = .ok m := by
    intro v m
    rw [toMessageOnStack_outcome, mapError_eq_ok_iff]
    rfl
  have haccepts := hbounds.exists_ok_iff
  rw [Int.zero_add] at haccepts
  simp only [hread]
  refine ⟨haccepts, ?_⟩
  intro m hm
  obtain ⟨hlevels, hkeyed⟩ := hresult m hm
  have hwithin := (haccepts.mp ⟨m, hm⟩).2
  rw [← hlevels] at hwithin
  refine ⟨hkeyed, ?_⟩
  obtain ⟨plain, hplain, hagain⟩ := exists_plain hwithin
  exact ⟨plain, hplain, (hread plain m).mp hagain⟩

/-- Plain data that is accepted but is not what its message is turned into: tuples and a byte
string as bodies, a number's reference without type, null fields, and text beside text. -/
def loosePlain : Value :=
  .tuple [.str "a", .str "b",
    .dict [(.str "name", .str "i"), (.str "children", .bytes [])],
    .dict [(.str "ref", .bool true), (.str "id", .str "n")],
    .dict [(.str "id", .str "n"), (.str "type", .str "plural"), (.str "format", .int 1),
      (.str "options", .dict [(.str "one", .list [.str "x"]),
        (.str "other", .tuple [.dict [(.str "id", .str "k"), (.str "type", .null)]])])]]

/-- The message that it is read as. -/
def looseMessage : Message :=
  [.text "a", .text "b", .tag "i" (some []), .reference "n",
    .placeholder "n" (some "plural") (some (.offset 1))
      (some [("one", [.text "x"]), ("other", [.placeholder "k" none none none])])]

/-- The data is a body of one level, and its message is read back from plain data that differs. -/
theorem toMessageOnStack_accepts_loosePlain :
    IsBody loosePlain ∧ bodyLevels loosePlain = 1 ∧ loosePlain.Keyed ∧
      (toMessageOnStack standardFrames loosePlain).outcome = .ok looseMessage ∧
      looseMessage.toValue.Keyed ∧
      ∃ plain, plain ≠ loosePlain ∧
        (ofAnythingOnStack standardFrames looseMessage.toValue).outcome = .ok plain ∧
        (toMessageOnStack standardFrames plain).outcome = .ok looseMessage := by
  obtain ⟨haccepts, hresult⟩ := toMessageOnStack_accepts standardFrames loosePlain
  have hread : (toMessageOnStack standardFrames loosePlain).outcome = .ok looseMessage := by
    decide +kernel
  have hkeyed : loosePlain.Keyed := by
    simp [loosePlain, Value.Keyed, Value.ItemsKeyed, Value.EntriesKeyed]
    decide
  obtain ⟨hkept, plain, hplain, hagain⟩ := hresult looseMessage hread
  refine ⟨(haccepts.mp ⟨_, hread⟩).1, by decide, hkeyed, hread, hkept hkeyed, plain, ?_, hplain,
    hagain⟩
  rintro rfl
  have hlist : (ofAnythingOnStack standardFrames looseMessage.toValue).outcome.toOption.map
      Value.typeName = some "list" := by
    decide +kernel
  rw [hplain] at hlist
  exact absurd hlist (by decide)

end Plain

end MessageFormat
