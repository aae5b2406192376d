import MessageFormat.Proofs.Plain.Schema

/-!
# Reading plain data

Reading is a walk within a nesting limit that is fit for the schema (`toBody_answers`). What it
gives has as many levels as the data, and no selector twice if no dictionary of the data has a
key twice. The walk tests one part after another, and so does the proof: each part answers by
its levels, and its result is what the next part builds on (`Answers.bind`).
-/

namespace MessageFormat.Plain

/-- Reading a part of plain data answers by the levels of the part, and what it gives is as it
should be. -/
structure Answers {α : Type} (g : Guard) (levels : Nat) (fit : Prop) (result : α → Prop)
    (x : Except PlainFault α) : Prop where
  bounds : g.Bounds .tooDeep levels fit x
  result : ∀ a, x = .ok a → result a

section Answers

variable {α β : Type} {g : Guard} {levels levels' : Nat} {fit fit' : Prop}
  {result result'' : α → Prop} {x : Except PlainFault α}

theorem Answers.leaf
    {a : α} (hg : g.depth ≤ g.limit) (hfit : fit) (hresult : result a) :
    Answers g 0 fit result (Except.ok a) where
  bounds := .leaf hg hfit
  result := by
    rintro _ ⟨⟩
    exact hresult

theorem Answers.unfit
    {e : PlainFault} (hother : ∀ limit, e ≠ .tooDeep limit) (hunfit : ¬ fit) :
    Answers g levels fit result (Except.error e) where
  bounds := .unfit hother hunfit
  result := nofun

/-- A part that is refused with a fault that shows a value. -/
theorem Answers.refused
    {v : Value} {fault : String → PlainFault} (hother : ∀ text limit, fault text ≠ .tooDeep limit)
    (hunfit : ¬ fit) :
    Answers g levels fit result (Except.error (.showing v fault)) :=
  .unfit (PlainFault.showing_ne_tooDeep hother) hunfit

/-- One part after another, of which the second may build on the first. -/
theorem Answers.bind
    {f : α → Except PlainFault β} {result' : α → β → Prop} {whole : β → Prop}
    (hx : Answers g levels fit result x)
    (hf : ∀ a, Answers g levels' fit' (result' a) (f a))
    (hwhole : ∀ a b, result a → result' a b → whole b) :
    Answers g (max levels levels') (fit ∧ fit') whole (x >>= f) where
  bounds := hx.bounds.bind fun a => (hf a).bounds
  result := by
    intro b hb
    cases x with
    | error e => cases hb
    | ok a => exact hwhole a b (hx.result a rfl) ((hf a).result b hb)

/-- The last part of several. -/
theorem Answers.andReturn
    {whole : β → Prop} (hx : Answers g levels fit result x) (f : α → β)
    (hwhole : ∀ a, result a → whole (f a)) :
    Answers g levels fit whole (x >>= fun a => pure (f a)) where
  bounds := hx.bounds.andReturn f
  result := by
    intro b hb
    cases x with
    | error e => cases hb
    | ok a =>
        cases hb
        exact hwhole a (hx.result a rfl)

/-- Two parts, put together. -/
theorem Answers.both
    {γ : Type} {y : Except PlainFault β} {result' : β → Prop} {whole : γ → Prop}
    (hx : Answers g levels fit result x) (hy : Answers g levels' fit' result' y) (f : α → β → γ)
    (hwhole : ∀ a b, result a → result' b → whole (f a b)) :
    Answers g (max levels levels') (fit ∧ fit') whole
      (x >>= fun a => y >>= fun b => pure (f a b)) := by
  have hparts : ∀ a, Answers g levels' fit' (fun c => ∃ b, result' b ∧ f a b = c)
      (y >>= fun b => pure (f a b)) :=
    fun a => hy.andReturn (f a) fun b hb => ⟨b, hb, rfl⟩
  refine hx.bind hparts ?_
  rintro a _ ha ⟨b, hb, rfl⟩
  exact hwhole a b ha hb

/-- The same answer, said otherwise. -/
theorem Answers.congr
    (hx : Answers g levels fit result x) (hlevels : levels = levels') (hfit : fit ↔ fit')
    (hresult : ∀ a, result a → result'' a) :
    Answers g levels' fit' result'' x where
  bounds := hx.bounds.congr hlevels hfit
  result a ha := hresult a (hx.result a ha)

/-- A body one level deeper. -/
theorem Answers.enter
    {f : Guard → Except PlainFault α}
    (hf : g.inner.depth ≤ g.inner.limit → Answers g.inner levels fit result (f g.inner)) :
    Answers g (1 + levels) fit result (g.enterPlain >>= f) where
  bounds := Guard.Bounds.enter rfl fun hinner => (hf hinner).bounds
  result := by
    intro a ha
    by_cases hlt : g.depth < g.limit
    · rw [Guard.enterPlain, Guard.enter_of_lt hlt] at ha
      exact (hf (Guard.inner_le hlt)).result a ha
    · rw [Guard.enterPlain, Guard.enter_of_le (by omega)] at ha
      cases ha

end Answers

section Fields

variable {entries : List (Value × Value)} {g : Guard}

/-- The keys that are refused are those that are no name. -/
theorem unknownKeys_eq_nil_iff
    {names : List String} :
    ((entries.map (·.1)).filter fun key => !names.any (key.same <| .str ·)) = [] ↔
      KeysAmong entries names := by
  simp only [List.filter_eq_nil_iff, List.mem_map, Bool.not_eq_true', Bool.not_eq_false,
    List.any_eq_true, same_str_iff, forall_exists_index, and_imp, forall_apply_eq_imp_iff₂,
    KeysAmong]

theorem checkKeys_of_keysAmong
    {names : List String} (h : KeysAmong entries names) :
    checkKeys entries names = .ok () := by
  simp only [checkKeys, unknownKeys_eq_nil_iff.mpr h]

theorem checkKeys_of_not
    {names : List String} (h : ¬ KeysAmong entries names) :
    ∃ e, checkKeys entries names = .error e ∧ ∀ limit, e ≠ .tooDeep limit := by
  unfold checkKeys
  split
  · next hnone => exact absurd (unknownKeys_eq_nil_iff.mp hnone) h
  · split
    · exact ⟨_, rfl, nofun⟩
    · exact ⟨_, rfl, PlainFault.showing_ne_tooDeep nofun⟩

theorem readType_answers
    (hg : g.depth ≤ g.limit) :
    Answers g 0 (∀ v, Value.field entries "type" = some v → v = .null ∨ ∃ s, v = .str s)
      (fun _ => True) (readType entries) := by
  unfold readType
  cases hfield : Value.field entries "type" with
  | none => exact .leaf hg nofun trivial
  | some v =>
      cases v with
      | null => exact .leaf hg (by simp) trivial
      | str s => exact .leaf hg (by simp) trivial
      | _ => exact .refused nofun (by simp)

theorem readFormat_answers
    (hg : g.depth ≤ g.limit) :
    Answers g 0
      (∀ v, Value.field entries "format" = some v →
        v = .null ∨ (∃ s, v = .str s) ∨ ∃ n, v = .int n)
      (fun _ => True) (readFormat entries) := by
  unfold readFormat
  cases hfield : Value.field entries "format" with
  | none => exact .leaf hg nofun trivial
  | some v =>
      cases v with
      | null => exact .leaf hg (by simp) trivial
      | str s => exact .leaf hg (by simp) trivial
      | int n => exact .leaf hg (by simp) trivial
      | _ => exact .refused nofun (by simp)

end Fields

/-- A node is as it should be: it has as many levels as the data, and no selector twice if no key of
the data is there twice. -/
def NodeAnswer (levels : Nat) (keyed : Prop) (node : Node) : Prop :=
  node.levels = levels ∧ (keyed → node.toValue.Keyed)

section Shapes

variable {entries : List (Value × Value)} {g : Guard} {name id : String}

/-- The content of a tag is read as it should be. -/
abbrev ChildrenAnswer (g : Guard) (entries : List (Value × Value)) : Prop :=
  Answers g (childrenLevels entries)
    (∀ v, Value.field entries "children" = some v → v ≠ .null → IsBody v)
    (fun children => ∀ name,
      NodeAnswer (childrenLevels entries) (Value.EntriesKeyed entries) (.tag name children))
    (childrenAmong g entries)

/-- The sub-messages of a placeholder are read as they should be. -/
abbrev OptionsAnswer (g : Guard) (whole : Value) (entries : List (Value × Value)) : Prop :=
  Answers g (optionsLevels entries)
    (∀ v, Value.field entries "options" = some v → v ≠ .null → IsOptions v)
    (fun subs => ∀ id type format,
      NodeAnswer (optionsLevels entries) (Value.EntriesKeyed entries)
        (.placeholder id type format subs))
    (optionsAmong g whole entries)

theorem toNode_tag_answers
    (hshape : shape? entries = some (.tag name))
    (hkeys : KeysAmong entries (Shape.tag name).keys)
    (hchildren : ChildrenAnswer g entries) :
    Answers g (nodeLevels (.dict entries)) (IsNode (.dict entries))
      (NodeAnswer (nodeLevels (.dict entries)) (Value.dict entries).Keyed)
      (toNode g (.dict entries)) := by
  have hlevels : nodeLevels (.dict entries) = childrenLevels entries := by
    rw [nodeLevels, hkeys.optionsLevels_eq (by simp [Shape.keys]), Nat.max_zero]
  have hnode : toNode g (.dict entries) =
      childrenAmong g entries >>= fun children => pure (.tag name children) := by
    simp only [toNode, hshape, checkKeys_of_keysAmong hkeys]
    rfl
  rw [hlevels, hnode, isNode_tag_iff hshape, and_iff_right hkeys]
  refine hchildren.andReturn (Node.tag name) ?_
  intro children hresult
  exact ⟨(hresult name).1, fun hkeyed => (hresult name).2 hkeyed.2⟩

theorem toNode_reference_answers
    (hg : g.depth ≤ g.limit)
    (hshape : shape? entries = some (.reference id))
    (hkeys : KeysAmong entries (Shape.reference id).keys) :
    Answers g (nodeLevels (.dict entries)) (IsNode (.dict entries))
      (NodeAnswer (nodeLevels (.dict entries)) (Value.dict entries).Keyed)
      (toNode g (.dict entries)) := by
  have hlevels : nodeLevels (.dict entries) = 0 := by
    rw [nodeLevels, hkeys.childrenLevels_eq (by simp [Shape.keys]),
      hkeys.optionsLevels_eq (by simp [Shape.keys]), Nat.max_zero]
  rw [hlevels, isNode_reference_iff hshape, and_iff_right hkeys]
  simp only [toNode, hshape, checkKeys_of_keysAmong hkeys, bind, Except.bind]
  cases hfield : Value.field entries "type" with
  | none => exact .leaf hg nofun ⟨rfl, fun _ => trivial⟩
  | some v =>
      split
      · next hsame =>
          obtain rfl := same_str_iff.mp hsame
          exact .leaf hg (by simp) ⟨rfl, fun _ => trivial⟩
      · next hne =>
          refine .refused nofun ?_
          intro htype
          exact hne (same_str_iff.mpr (htype v rfl))

theorem toNode_placeholder_answers
    (hg : g.depth ≤ g.limit)
    (hshape : shape? entries = some (.placeholder id))
    (hkeys : KeysAmong entries (Shape.placeholder id).keys)
    (hoptions : OptionsAnswer g (.dict entries) entries) :
    Answers g (nodeLevels (.dict entries)) (IsNode (.dict entries))
      (NodeAnswer (nodeLevels (.dict entries)) (Value.dict entries).Keyed)
      (toNode g (.dict entries)) := by
  have hlevels : nodeLevels (.dict entries) = optionsLevels entries := by
    rw [nodeLevels, hkeys.childrenLevels_eq (by simp [Shape.keys]), Nat.zero_max]
  have hnode : toNode g (.dict entries) =
      readType entries >>= fun type => readFormat entries >>= fun format =>
        optionsAmong g (.dict entries) entries >>= fun subs =>
          pure (.placeholder id type format subs) := by
    simp only [toNode, hshape, checkKeys_of_keysAmong hkeys]
    rfl
  rw [hlevels, hnode, isNode_placeholder_iff hshape, and_iff_right hkeys]
  have hlast : ∀ type format, Answers g (optionsLevels entries)
      (∀ v, Value.field entries "options" = some v → v ≠ .null → IsOptions v)
      (NodeAnswer (optionsLevels entries) (Value.dict entries).Keyed)
      (optionsAmong g (.dict entries) entries >>= fun subs =>
        pure (.placeholder id type format subs)) := by
    intro type format
    refine hoptions.andReturn (Node.placeholder id type format) ?_
    intro subs hresult
    exact ⟨(hresult id type format).1, fun hkeyed => (hresult id type format).2 hkeyed.2⟩
  refine ((readType_answers hg).bind (fun type =>
    (readFormat_answers hg).bind (hlast type) fun _ _ _ hnode => hnode)
    fun _ _ _ hnode => hnode).congr ?_ Iff.rfl fun _ hnode => hnode
  rw [Nat.zero_max, Nat.zero_max]

/-- A dictionary is read as the node whose shape it has, if its fields are fit for it. -/
theorem toNode_dict_answers
    (hg : g.depth ≤ g.limit)
    (hchildren : ChildrenAnswer g entries)
    (hoptions : OptionsAnswer g (.dict entries) entries) :
    Answers g (nodeLevels (.dict entries)) (IsNode (.dict entries))
      (NodeAnswer (nodeLevels (.dict entries)) (Value.dict entries).Keyed)
      (toNode g (.dict entries)) := by
  cases hshape : shape? entries with
  | none =>
      simp only [toNode, hshape]
      exact .refused nofun (not_isNode_of_shape hshape)
  | some shape =>
      by_cases hkeys : KeysAmong entries shape.keys
      · cases shape with
        | tag name => exact toNode_tag_answers hshape hkeys hchildren
        | reference id => exact toNode_reference_answers hg hshape hkeys
        | placeholder id => exact toNode_placeholder_answers hg hshape hkeys hoptions
      · obtain ⟨e, he, hother⟩ := checkKeys_of_not hkeys
        simp only [toNode, hshape, he]
        exact .unfit hother fun hnode => hkeys (hnode.keysAmong hshape)

end Shapes

/-- The nodes of a body are as they should be. -/
def BodyAnswer (levels : Nat) (keyed : Prop) (m : Message) : Prop :=
  Message.levels m = levels ∧ (keyed → Value.ItemsKeyed (Message.toItems m))

/-- Sub-messages are as they should be, and have the keys of the data as selectors. -/
def SubmessagesAnswer (entries : List (Value × Value)) (subs : Submessages) : Prop :=
  Submessages.levels subs = submessagesLevels entries ∧
    (Submessages.toEntries subs).map Prod.fst = entries.map Prod.fst ∧
    (Value.EntriesKeyed entries → Value.EntriesKeyed (Submessages.toEntries subs))

section Entries

variable {g : Guard} {key v : Value} {rest : List (Value × Value)}

/-- A field of another name is passed over. -/
theorem childrenAmong_of_ne
    (h : key.same (.str "children") = false) :
    childrenAmong g ((key, v) :: rest) = childrenAmong g rest := by
  rw [childrenAmong.eq_def]
  simp only [h]
  rfl

theorem optionsAmong_of_ne
    {whole : Value} (h : key.same (.str "options") = false) :
    optionsAmong g whole ((key, v) :: rest) = optionsAmong g whole rest := by
  rw [optionsAmong.eq_def]
  simp only [h]
  rfl

/-- The first field of the name counts. -/
theorem childrenAmong_cons_answers
    (hg : g.depth ≤ g.limit)
    (hbody : Answers g (1 + bodyLevels v) (IsBody v) (BodyAnswer (bodyLevels v) v.Keyed)
      (g.enterPlain >>= fun inner => toBody inner v))
    (hrest : ChildrenAnswer g rest) :
    ChildrenAnswer g ((key, v) :: rest) := by
  cases hsame : key.same (.str "children") with
  | false =>
      simp only [ChildrenAnswer, childrenAmong_of_ne hsame, field_cons, childrenLevels, hsame]
      exact hrest.congr rfl Iff.rfl fun children hresult name =>
        ⟨(hresult name).1, fun hkeyed => (hresult name).2 hkeyed.2⟩
  | true =>
      by_cases hnull : v = .null
      · subst hnull
        simp only [ChildrenAnswer, field_cons, childrenLevels, childrenAmong, hsame, if_true]
        exact .leaf hg (by simp) fun name => ⟨rfl, fun _ => trivial⟩
      · have hread : childrenAmong g ((key, v) :: rest) =
            g.enterPlain >>= fun inner =>
              toBody inner v >>= fun children => pure (some children) := by
          rw [childrenAmong, if_pos hsame]
          exact hnull
        simp only [ChildrenAnswer, field_cons, childrenLevels, hread, hsame, if_true,
          contentLevels_eq hnull, ← bind_assoc]
        refine (hbody.andReturn some ?_).congr rfl (by simp [hnull]) fun _ => id
        rintro children ⟨hlevels, hkeyed⟩ name
        exact ⟨congrArg (1 + ·) hlevels, fun hentries => hkeyed hentries.1⟩

theorem optionsAmong_cons_answers
    {whole : Value} (hg : g.depth ≤ g.limit)
    (hsubs : ∀ entries, v = .dict entries →
      Answers g (submessagesLevels entries) (IsOptions (.dict entries)) (SubmessagesAnswer entries)
        (toSubmessages g entries))
    (hrest : OptionsAnswer g whole rest) :
    OptionsAnswer g whole ((key, v) :: rest) := by
  cases hsame : key.same (.str "options") with
  | false =>
      simp only [OptionsAnswer, optionsAmong_of_ne hsame, field_cons, optionsLevels, hsame]
      exact hrest.congr rfl Iff.rfl fun subs hresult id type format =>
        ⟨(hresult id type format).1, fun hkeyed => (hresult id type format).2 hkeyed.2⟩
  | true =>
      simp only [OptionsAnswer, field_cons, optionsLevels, hsame, if_true]
      by_cases hnull : v = .null
      · subst hnull
        rw [optionsAmong, if_pos hsame]
        exact .leaf hg (by simp) fun _ _ _ => ⟨rfl, fun _ => trivial⟩
      by_cases hdict : ∃ entries, v = .dict entries
      · obtain ⟨entries, rfl⟩ := hdict
        rw [optionsAmong, if_pos hsame]
        refine ((hsubs entries rfl).andReturn some ?_).congr rfl (by simp) fun _ => id
        rintro subs ⟨hlevels, hkeys, hkeyed⟩ id type format
        refine ⟨hlevels, ?_⟩
        rintro ⟨⟨hdistinct, hentries⟩, _⟩
        exact ⟨hkeys ▸ hdistinct, hkeyed hentries⟩
      · have hread : optionsAmong g whole ((key, v) :: rest) =
            .error (.showing whole .optionsNotMapping) := by
          rw [optionsAmong, if_pos hsame]
          · exact hnull
          · exact fun entries hv => hdict ⟨entries, hv⟩
        rw [hread]
        exact .refused (by simp) fun h => hdict (h v rfl hnull).exists_dict

/-- Every selector is a text, and every sub-message a body. -/
theorem toSubmessages_cons_answers
    (hbody : Answers g (1 + bodyLevels v) (IsBody v) (BodyAnswer (bodyLevels v) v.Keyed)
      (g.enterPlain >>= fun inner => toBody inner v))
    (hrest : Answers g (submessagesLevels rest) (IsOptions (.dict rest)) (SubmessagesAnswer rest)
      (toSubmessages g rest)) :
    Answers g (submessagesLevels ((key, v) :: rest)) (IsOptions (.dict ((key, v) :: rest)))
      (SubmessagesAnswer ((key, v) :: rest)) (toSubmessages g ((key, v) :: rest)) := by
  by_cases hkey : ∃ selector, key = .str selector
  · obtain ⟨selector, rfl⟩ := hkey
    rw [toSubmessages, ← bind_assoc]
    refine (hbody.both hrest (fun body subs => (selector, body) :: subs) ?_).congr rfl
      (by simp [isOptions_cons_iff]) fun _ => id
    rintro body subs ⟨hlevels, hkeyed⟩ ⟨hlevels', hkeys, hkeyed'⟩
    refine ⟨?_, ?_, fun hentries => ⟨hkeyed hentries.1, hkeyed' hentries.2⟩⟩
    · rw [Submessages.levels, submessagesLevels, hlevels, hlevels']
    · rw [Submessages.toEntries, List.map_cons, List.map_cons, hkeys]
  · have hread : toSubmessages g ((key, v) :: rest) =
        .error (.showing key .selectorNotText) := by
      rw [toSubmessages]
      exact fun selector hselector => hkey ⟨selector, hselector⟩
    rw [hread]
    exact .refused nofun fun h => hkey (isOptions_cons_iff.mp h).1

end Entries

mutual

theorem toNode_answers
    (g : Guard) (hg : g.depth ≤ g.limit) (v : Value) :
    Answers g (nodeLevels v) (IsNode v) (NodeAnswer (nodeLevels v) v.Keyed) (toNode g v) := by
  match v with
  | .str s => exact .leaf hg (.text s) ⟨rfl, fun _ => trivial⟩
  | .dict entries =>
      exact toNode_dict_answers hg (childrenAmong_answers g hg entries)
        (optionsAmong_answers g hg _ entries)
  | .null | .bool _ | .int _ | .float _ | .bytes _ | .list _ | .tuple _ | .placeholder ..
  | .reference _ | .tag .. => exact .refused nofun nofun

theorem toBody_answers
    (g : Guard) (hg : g.depth ≤ g.limit) (v : Value) :
    Answers g (bodyLevels v) (IsBody v) (BodyAnswer (bodyLevels v) v.Keyed) (toBody g v) := by
  match v with
  | .list items =>
      rw [isBody_list_iff]
      exact toNodes_answers g hg items
  | .tuple items =>
      rw [isBody_tuple_iff]
      exact toNodes_answers g hg items
  | .bytes [] => exact .leaf hg (isBody_bytes_iff.mpr rfl) ⟨rfl, fun _ => trivial⟩
  | .bytes (b :: rest) => exact .unfit nofun (by simp [isBody_bytes_iff])
  | .str s => exact .unfit nofun fun h => by obtain ⟨_, htext, _, _⟩ := h; exact htext s rfl
  | .dict entries =>
      exact .unfit nofun fun h => by obtain ⟨_, _, hdict, _⟩ := h; exact hdict entries rfl
  | .null | .bool _ | .int _ | .float _ | .placeholder .. | .reference _ | .tag .. =>
      exact .unfit nofun (not_isBody_of_items rfl)

theorem toNodes_answers
    (g : Guard) (hg : g.depth ≤ g.limit) (items : List Value) :
    Answers g (itemsLevels items) (∀ item ∈ items, IsNode item)
      (BodyAnswer (itemsLevels items) (Value.ItemsKeyed items)) (toNodes g items) := by
  match items with
  | [] => exact .leaf hg nofun ⟨rfl, fun _ => trivial⟩
  | v :: rest =>
      have hnode := toNode_answers g hg v
      have hrest := toNodes_answers g hg rest
      rw [toNodes, List.forall_mem_cons]
      refine hnode.both hrest List.cons ?_
      rintro node nodes ⟨hlevels, hkeyed⟩ ⟨hlevels', hkeyed'⟩
      refine ⟨?_, fun hitems => ⟨hkeyed hitems.1, hkeyed' hitems.2⟩⟩
      rw [Message.levels, itemsLevels, hlevels, hlevels']

theorem childrenAmong_answers
    (g : Guard) (hg : g.depth ≤ g.limit) (entries : List (Value × Value)) :
    ChildrenAnswer g entries := by
  match entries with
  | [] => exact .leaf hg nofun fun name => ⟨rfl, fun _ => trivial⟩
  | (key, v) :: rest =>
      have hbody : Answers g (1 + bodyLevels v) (IsBody v) (BodyAnswer (bodyLevels v) v.Keyed)
          (g.enterPlain >>= fun inner => toBody inner v) :=
        .enter fun hinner => toBody_answers g.inner hinner v
      exact childrenAmong_cons_answers hg hbody (childrenAmong_answers g hg rest)

theorem optionsAmong_answers
    (g : Guard) (hg : g.depth ≤ g.limit) (whole : Value) (entries : List (Value × Value)) :
    OptionsAnswer g whole entries := by
  match entries with
  | [] => exact .leaf hg nofun fun _ _ _ => ⟨rfl, fun _ => trivial⟩
  | (key, v) :: rest =>
      refine optionsAmong_cons_answers hg ?_ (optionsAmong_answers g hg whole rest)
      intro subs hsubs
      match v, hsubs with
      | .dict subs, rfl => exact toSubmessages_answers g hg subs

theorem toSubmessages_answers
    (g : Guard) (hg : g.depth ≤ g.limit) (entries : List (Value × Value)) :
    Answers g (submessagesLevels entries) (IsOptions (.dict entries)) (SubmessagesAnswer entries)
      (toSubmessages g entries) := by
  match entries with
  | [] => exact .leaf hg isOptions_nil ⟨rfl, rfl, fun _ => trivial⟩
  | (key, v) :: rest =>
      have hbody : Answers g (1 + bodyLevels v) (IsBody v) (BodyAnswer (bodyLevels v) v.Keyed)
          (g.enterPlain >>= fun inner => toBody inner v) :=
        .enter fun hinner => toBody_answers g.inner hinner v
      exact toSubmessages_cons_answers hbody (toSubmessages_answers g hg rest)

end

end MessageFormat.Plain
