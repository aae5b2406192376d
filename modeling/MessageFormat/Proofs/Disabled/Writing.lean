import MessageFormat.Loose.Serialize
import MessageFormat.Proofs.Disabled.Reading

/-!
# Writing looks only at what is switched on

Dialects that agree quote a text in the same way, and put parts together in the same way
(`Agrees.layoutPlaceholder_eq`, `Agrees.layoutTag_eq`): tags cannot be written where they are not
allowed, and an offset only for a numeric type. The walks over a message and over a hand-built tree
follow by induction.
-/

namespace MessageFormat

namespace Dialect

/-- A body has an owner only where there are numeric types. -/
def OwnerUsed {α : Type} (d : Dialect) (owner : Option α) : Prop :=
  owner.isSome = true → d.numericTypes ≠ []

theorem OwnerUsed.none
    {α : Type} {d : Dialect} :
    d.OwnerUsed (none : Option α) :=
  nofun

/-- The owner of the sub-messages of a numeric type is used. -/
theorem ownerUsed_ite
    {α : Type} {d : Dialect} {isNumeric : Bool} (a : α)
    (h : isNumeric = true → d.numericTypes ≠ []) :
    d.OwnerUsed (if isNumeric then some a else none) := by
  intro hsome
  cases isNumeric with
  | false => cases hsome
  | true => exact h rfl

namespace Agrees

variable {d d' : Dialect}

section MessageParts

variable (h : d.Agrees d')
include h

theorem spell_eq
    {m : Mode} (hm : d.Uses m) (text : String) :
    d'.spell m text = d.spell m text := by
  rw [spell, spell, h.stops_eq hm, h.quote]

theorem writeToken_eq
    (kind : TokenKind) (token : String) :
    d'.writeToken kind token = d.writeToken kind token := by
  have hm : d.Uses (if kind = .tagName then .tagName else .word) := by
    split <;> exact uses_of_references rfl d
  rw [writeToken, writeToken, h.spell_eq hm]

theorem layoutOffset_eq
    {isNumeric : Bool} (hnumeric : isNumeric = true → d.numericTypes ≠ [])
    (shownId : Option String) (format : FormatPart) :
    d'.layoutOffset shownId isNumeric format = d.layoutOffset shownId isNumeric format := by
  cases format with
  | absent => rfl
  | text text => rfl
  | offset text =>
      cases isNumeric with
      | false => rfl
      | true => rw [layoutOffset, layoutOffset, (h.numbers (hnumeric rfl)).2]

theorem layoutBranching_eq
    {isNumeric : Bool} (hnumeric : isNumeric = true → d.numericTypes ≠ [])
    (p : PlaceholderParts) :
    d'.layoutBranching p isNumeric = d.layoutBranching p isNumeric := by
  simp only [layoutBranching, h.layoutOffset_eq hnumeric, h.separator]

theorem layoutPlain_eq
    (p : PlaceholderParts) (shownType : Option String) :
    d'.layoutPlain p shownType = d.layoutPlain p shownType := by
  simp only [layoutPlain, h.spell_eq (m := .body) (uses_of_references rfl d), h.separator]

theorem layoutPlaceholder_eq
    {p : PlaceholderParts}
    (htype : ∀ t, p.type = some t → t.isNumeric = true → d.numericTypes ≠ []) :
    d'.layoutPlaceholder p = d.layoutPlaceholder p := by
  obtain ⟨shownId, id, type, format, submessages⟩ := p
  cases type with
  | none => simp only [layoutPlaceholder, h.opener, h.closer]
  | some t =>
      simp only [layoutPlaceholder, h.layoutBranching_eq (htype t rfl), h.layoutPlain_eq, h.opener,
        h.closer, h.separator]

theorem layoutSubmessage_eq
    (selector body : Written) :
    d'.layoutSubmessage selector body = d.layoutSubmessage selector body := by
  rw [layoutSubmessage, layoutSubmessage, h.opener, h.closer]

theorem layoutTag_eq
    (p : TagParts) :
    d'.layoutTag p = d.layoutTag p := by
  rw [layoutTag, layoutTag, ← h.tagsAllowed]
  split
  · next htags =>
      obtain ⟨hopener, hcloser, hslash⟩ := h.tags htags
      rw [hopener, hcloser, hslash]
  · rfl

theorem typePart_eq
    (type : String) :
    d'.typePart type = d.typePart type := by
  simp only [typePart, h.writeToken_eq, h.isBranching_eq, h.isNumeric_eq]

theorem typeParts_eq
    (type : Option String) :
    type.map d'.typePart = type.map d.typePart := by
  cases type with
  | none => rfl
  | some type => exact congrArg some (h.typePart_eq type)

omit h in
theorem typePart_used
    {type : Option String} {t : TypePart} (ht : type.map d.typePart = some t)
    (hnumeric : t.isNumeric = true) :
    d.numericTypes ≠ [] := by
  obtain ⟨name, -, rfl⟩ := Option.map_eq_some_iff.mp ht
  exact numericTypes_ne_nil hnumeric

theorem ownerOf_eq
    (id : String) :
    d'.ownerOf id = d.ownerOf id := by
  funext type
  rw [ownerOf, ownerOf, h.isNumeric_eq]

omit h in
theorem ownerOf_used
    (id : String) (type : Option String) :
    d.OwnerUsed (type.bind (d.ownerOf id)) := by
  cases type with
  | none => exact OwnerUsed.none
  | some type => exact ownerUsed_ite id numericTypes_ne_nil

theorem writeReference_eq
    {owner : Option String} (howner : d.OwnerUsed owner) (id : String) :
    d'.writeReference owner id = d.writeReference owner id := by
  unfold writeReference
  split
  · next hid =>
      rw [(h.numbers (howner (by simp [hid]))).1]
  · rfl

theorem spell_modeOf_eq
    {owner : Option String} (howner : d.OwnerUsed owner) (text : String) :
    d'.spell (modeOf owner) text = d.spell (modeOf owner) text := by
  cases owner with
  | none => exact h.spell_eq (m := .body) (uses_of_references rfl d) text
  | some id => exact h.spell_eq (m := .numericBody) (fun _ => howner rfl) text

end MessageParts

mutual

theorem writeNode_eq
    (h : d.Agrees d') (g : Guard) {owner : Option String} (howner : d.OwnerUsed owner)
    (node : Node) :
    d'.writeNode g owner node = d.writeNode g owner node := by
  match node with
  | .text s => simp only [writeNode, h.spell_modeOf_eq howner]
  | .reference id => simp only [writeNode, h.writeReference_eq howner]
  | .placeholder id type format none =>
      simp only [writeNode, h.writeToken_eq, h.typeParts_eq]
      exact h.layoutPlaceholder_eq fun t ht => typePart_used ht
  | .placeholder id type format (some subs) =>
      simp only [writeNode, h.writeToken_eq, h.typeParts_eq, h.ownerOf_eq,
        h.writeSubmessages_eq g (ownerOf_used id type) subs]
      exact h.layoutPlaceholder_eq fun t ht => typePart_used ht
  | .tag name none => simp only [writeNode, h.writeToken_eq, h.layoutTag_eq]
  | .tag name (some []) => simp only [writeNode, h.writeToken_eq, h.layoutTag_eq]
  | .tag name (some (child :: rest)) =>
      have hinner : ∀ inner : Guard,
          d'.writeNode inner none child = d.writeNode inner none child ∧
            d'.writeNodes inner none rest = d.writeNodes inner none rest := fun inner =>
        ⟨h.writeNode_eq inner OwnerUsed.none child, h.writeNodes_eq inner OwnerUsed.none rest⟩
      simp only [writeNode, h.writeToken_eq, h.layoutTag_eq, hinner]

theorem writeNodes_eq
    (h : d.Agrees d') (g : Guard) {owner : Option String} (howner : d.OwnerUsed owner)
    (m : List Node) :
    d'.writeNodes g owner m = d.writeNodes g owner m := by
  match m with
  | [] => simp only [writeNodes]
  | node :: rest =>
      simp only [writeNodes, h.writeNode_eq g howner node, h.writeNodes_eq g howner rest]

theorem writeSubmessages_eq
    (h : d.Agrees d') (g : Guard) {owner : Option String} (howner : d.OwnerUsed owner)
    (subs : List (String × List Node)) :
    d'.writeSubmessages g owner subs = d.writeSubmessages g owner subs := by
  match subs with
  | [] => simp only [writeSubmessages]
  | (selector, body) :: rest =>
      have hbody : ∀ inner : Guard,
          d'.writeNodes inner owner body = d.writeNodes inner owner body := fun inner =>
        h.writeNodes_eq inner howner body
      simp only [writeSubmessages, h.writeToken_eq, h.layoutSubmessage_eq, hbody,
        h.writeSubmessages_eq g howner rest]

end

section ValueParts

variable (h : d.Agrees d')
include h

theorem spellItems_eq
    {m : Mode} (hm : d.Uses m) (live : Bool) (run : List Char) (items : List Value) :
    d'.spellItems m live run items = d.spellItems m live run items := by
  induction items generalizing live run with
  | nil => simp only [spellItems, closeRun, h.quote]
  | cons item rest ih => simp only [spellItems, closeRun, h.quote, h.stops_eq hm, ih]

theorem writeTokenValue_eq
    (kind : TokenKind) (token : Value) :
    d'.writeTokenValue kind token = d.writeTokenValue kind token := by
  have hm : d.Uses (if kind = .tagName then .tagName else .word) := by
    split <;> exact uses_of_references rfl d
  unfold writeTokenValue
  simp only [h.writeToken_eq, h.spellItems_eq hm]

theorem isNumericValue_eq
    (type : Value) :
    d'.isNumericValue type = d.isNumericValue type := by
  cases type <;> simp only [isNumericValue, h.isNumeric_eq]

theorem isBranchingValue_eq
    (type : Value) :
    d'.isBranchingValue type = d.isBranchingValue type := by
  cases type <;> simp only [isBranchingValue, h.isBranching_eq]

omit h in
theorem numericTypes_of_isNumericValue
    {type : Value} (hnumeric : d.isNumericValue type = true) :
    d.numericTypes ≠ [] := by
  cases type with
  | str type => exact numericTypes_ne_nil hnumeric
  | _ => cases hnumeric

theorem typePartOf_eq
    (type : Value) :
    d'.typePartOf type = d.typePartOf type := by
  cases type <;>
    simp only [typePartOf, h.writeTokenValue_eq, h.isBranchingValue_eq, h.isNumericValue_eq]

omit h in
theorem typePartOf_used
    {type : Value} {t : TypePart} (ht : d.typePartOf type = some t)
    (hnumeric : t.isNumeric = true) :
    d.numericTypes ≠ [] := by
  have hvalue : d.isNumericValue type = true := by
    cases type with
    | null => cases ht
    | _ =>
        obtain rfl := Option.some.inj ht
        exact hnumeric
  exact numericTypes_of_isNumericValue hvalue

theorem spell_modeOfOwner_eq
    {owner : Option Value} (howner : d.OwnerUsed owner) (text : String) :
    d'.spell (modeOfOwner owner) text = d.spell (modeOfOwner owner) text := by
  cases owner with
  | none => exact h.spell_eq (m := .body) (uses_of_references rfl d) text
  | some id => exact h.spell_eq (m := .numericBody) (fun _ => howner rfl) text

end ValueParts

mutual

theorem writeValue_eq
    (h : d.Agrees d') (g : Guard) {owner : Option Value} (howner : d.OwnerUsed owner)
    (v : Value) :
    d'.writeValue g owner v = d.writeValue g owner v := by
  match v with
  | .str s => simp only [writeValue, h.spell_modeOfOwner_eq howner]
  | .reference id =>
      simp only [writeValue]
      split
      · next hid =>
          have hsome : owner.isSome = true := by
            cases owner with
            | none => cases hid
            | some id => rfl
          rw [(h.numbers (howner hsome)).1]
      · rfl
  | .placeholder id type format none =>
      simp only [writeValue, h.writeTokenValue_eq, h.typePartOf_eq]
      exact h.layoutPlaceholder_eq fun t ht => typePartOf_used ht
  | .placeholder id type format (some entries) =>
      have hinner : d.OwnerUsed (if d.isNumericValue type then some id else none) :=
        ownerUsed_ite id numericTypes_of_isNumericValue
      simp only [writeValue, h.writeTokenValue_eq, h.typePartOf_eq, h.isNumericValue_eq,
        h.writeEntries_eq g hinner entries]
      exact h.layoutPlaceholder_eq fun t ht => typePartOf_used ht
  | .tag name children =>
      have hbody : ∀ inner : Guard,
          d'.writeBodyValue inner none children = d.writeBodyValue inner none children :=
        fun inner => h.writeBodyValue_eq inner OwnerUsed.none children
      simp only [writeValue, h.writeTokenValue_eq, h.layoutTag_eq, hbody]
  | .null | .bool _ | .int _ | .float _ | .bytes _ | .list _ | .tuple _ | .dict _ =>
      simp only [writeValue]

theorem writeBodyValue_eq
    (h : d.Agrees d') (g : Guard) {owner : Option Value} (howner : d.OwnerUsed owner)
    (v : Value) :
    d'.writeBodyValue g owner v = d.writeBodyValue g owner v := by
  match v with
  | .list items => simp only [writeBodyValue, h.writeItems_eq g howner items]
  | .tuple items => simp only [writeBodyValue, h.writeItems_eq g howner items]
  | .dict entries => simp only [writeBodyValue, h.writeKeys_eq g howner entries]
  | .str s => simp only [writeBodyValue, h.spell_modeOfOwner_eq howner]
  | .bytes [] => simp only [writeBodyValue]
  | .bytes (b :: rest) => simp only [writeBodyValue]
  | .null | .bool _ | .int _ | .float _ | .placeholder .. | .reference _ | .tag .. =>
      simp only [writeBodyValue]

theorem writeItems_eq
    (h : d.Agrees d') (g : Guard) {owner : Option Value} (howner : d.OwnerUsed owner)
    (items : List Value) :
    d'.writeItems g owner items = d.writeItems g owner items := by
  match items with
  | [] => simp only [writeItems]
  | v :: rest => simp only [writeItems, h.writeValue_eq g howner v, h.writeItems_eq g howner rest]

theorem writeKeys_eq
    (h : d.Agrees d') (g : Guard) {owner : Option Value} (howner : d.OwnerUsed owner)
    (entries : List (Value × Value)) :
    d'.writeKeys g owner entries = d.writeKeys g owner entries := by
  match entries with
  | [] => simp only [writeKeys]
  | (key, value) :: rest =>
      simp only [writeKeys, h.writeValue_eq g howner key, h.writeKeys_eq g howner rest]

theorem writeEntries_eq
    (h : d.Agrees d') (g : Guard) {owner : Option Value} (howner : d.OwnerUsed owner)
    (entries : List (Value × Value)) :
    d'.writeEntries g owner entries = d.writeEntries g owner entries := by
  match entries with
  | [] => simp only [writeEntries]
  | (selector, body) :: rest =>
      have hbody : ∀ inner : Guard,
          d'.writeBodyValue inner owner body = d.writeBodyValue inner owner body := fun inner =>
        h.writeBodyValue_eq inner howner body
      simp only [writeEntries, h.writeTokenValue_eq, h.layoutSubmessage_eq, hbody,
        h.writeEntries_eq g howner rest]

end

/-- Whatever is handed over, it is written as the same text or refused in the same way. -/
theorem serializeOnStack_eq
    (h : d.Agrees d') (frames : Int) (v : Value) :
    d'.serializeOnStack frames v = d.serializeOnStack frames v := by
  have hvalue : ∀ limit, d'.serializeValue limit v = d.serializeValue limit v := by
    intro limit
    unfold serializeValue
    split
    · next m _ => exact h.writeNodes_eq _ OwnerUsed.none m
    · exact h.writeBodyValue_eq _ OwnerUsed.none v
  simp only [serializeOnStack, hvalue]

end Agrees

end Dialect

end MessageFormat
