import MessageFormat.Proofs.Depths

/-!
# The schema of plain data

A body of plain data is anything that can be iterated over, but no text and no dictionary, of which
every item is a node. A node is a text, or a dictionary whose keys and fields are those of a tag, a
reference or a placeholder (`IsBody`, `IsNode`, `IsOptions`). The schema is said of the data alone:
it knows no order of tests and no nesting limit.

Reading plain data is a walk within a nesting limit that is fit for the schema
(`toBody_answers`). It gives a message exactly for the data that fits and is within the limit,
which counts the content of a tag and each sub-message, empty or not (`bodyLevels`). What it
gives has as many levels as the data, and no selector twice if no dictionary of the data has a
key twice.
-/

namespace MessageFormat

mutual

/-- No dictionary in a value has a key twice, and no placeholder a selector. -/
def Value.Keyed : Value → Prop
  | .list items => Value.ItemsKeyed items
  | .tuple items => Value.ItemsKeyed items
  | .dict entries =>
      (entries.map Prod.fst).Pairwise (fun key key' => key.same key' = false) ∧
        Value.EntriesKeyed entries
  | .placeholder _ _ _ (some entries) =>
      (entries.map Prod.fst).Pairwise (fun key key' => key.same key' = false) ∧
        Value.EntriesKeyed entries
  | .tag _ children => Value.Keyed children
  | _ => True

/-- The same in each of several values. -/
def Value.ItemsKeyed : List Value → Prop
  | [] => True
  | v :: rest => Value.Keyed v ∧ Value.ItemsKeyed rest

/-- The same in the value of each entry. -/
def Value.EntriesKeyed : List (Value × Value) → Prop
  | [] => True
  | (_, v) :: rest => Value.Keyed v ∧ Value.EntriesKeyed rest

end

namespace Plain

/-- Every key of a dictionary is one of these names. -/
def KeysAmong (entries : List (Value × Value)) (names : List String) : Prop :=
  ∀ entry ∈ entries, ∃ name ∈ names, entry.1 = .str name

mutual

/-- A body: what can be iterated over nodes, but no text and no dictionary. -/
inductive IsBody : Value → Prop
  | of_items {v : Value} {items : List Value}
      (hitems : v.items = .ok items)
      (htext : ∀ s, v ≠ .str s)
      (hdict : ∀ entries, v ≠ .dict entries)
      (hnodes : ∀ item ∈ items, IsNode item) :
      IsBody v

/-- A node: a text, or a dictionary with the fields of a tag, a reference or a placeholder. -/
inductive IsNode : Value → Prop
  | text (s : String) :
      IsNode (.str s)
  | tag {entries : List (Value × Value)} {name : String}
      (hname : Value.field entries "name" = some (.str name))
      (hkeys : KeysAmong entries ["name", "children"])
      (hchildren : ∀ v, Value.field entries "children" = some v → v ≠ .null → IsBody v) :
      IsNode (.dict entries)
  | reference {entries : List (Value × Value)} {id : String}
      (hid : Value.field entries "id" = some (.str id))
      (href : Value.field entries "ref" = some (.bool true))
      (hkeys : KeysAmong entries ["id", "type", "ref"])
      (htype : ∀ v, Value.field entries "type" = some v → v = .str referenceType) :
      IsNode (.dict entries)
  | placeholder {entries : List (Value × Value)} {id : String}
      (hid : Value.field entries "id" = some (.str id))
      (hkeys : KeysAmong entries ["id", "type", "format", "options"])
      (htype : ∀ v, Value.field entries "type" = some v → v = .null ∨ ∃ s, v = .str s)
      (hformat : ∀ v, Value.field entries "format" = some v →
        v = .null ∨ (∃ s, v = .str s) ∨ ∃ n, v = .int n)
      (hoptions : ∀ v, Value.field entries "options" = some v → v ≠ .null → IsOptions v) :
      IsNode (.dict entries)

/-- Sub-messages: a dictionary of texts with bodies. -/
inductive IsOptions : Value → Prop
  | dict {entries : List (Value × Value)}
      (hselectors : ∀ entry ∈ entries, ∃ s, entry.1 = .str s)
      (hbodies : ∀ entry ∈ entries, IsBody entry.2) :
      IsOptions (.dict entries)

end

mutual

/-- The number of bodies around the most deeply nested part of a node of plain data. -/
def nodeLevels : Value → Nat
  | .dict entries => max (childrenLevels entries) (optionsLevels entries)
  | _ => 0

/-- The levels of the node of a body with the most. -/
def bodyLevels : Value → Nat
  | .list items => itemsLevels items
  | .tuple items => itemsLevels items
  | _ => 0

/-- The levels of the node with the most. -/
def itemsLevels : List Value → Nat
  | [] => 0
  | v :: rest => max (nodeLevels v) (itemsLevels rest)

/-- One more than the levels of the content of a tag, unless it is null. -/
def contentLevels : Value → Nat
  | .null => 0
  | .list items => 1 + itemsLevels items
  | .tuple items => 1 + itemsLevels items
  | _ => 1

/-- The levels of the sub-messages of a placeholder, if they are a dictionary. -/
def choiceLevels : Value → Nat
  | .dict entries => submessagesLevels entries
  | _ => 0

/-- The levels of the first field that is the content of a tag. -/
def childrenLevels : List (Value × Value) → Nat
  | [] => 0
  | (key, v) :: rest => if key.same (.str "children") then contentLevels v else childrenLevels rest

/-- The levels of the first field that holds sub-messages. -/
def optionsLevels : List (Value × Value) → Nat
  | [] => 0
  | (key, v) :: rest => if key.same (.str "options") then choiceLevels v else optionsLevels rest

/-- One more than the levels of the sub-message with the most. -/
def submessagesLevels : List (Value × Value) → Nat
  | [] => 0
  | (_, v) :: rest => max (1 + bodyLevels v) (submessagesLevels rest)

end

theorem contentLevels_eq
    {v : Value} (h : v ≠ .null) :
    contentLevels v = 1 + bodyLevels v := by
  cases v with
  | null => exact absurd rfl h
  | _ => rfl

section Lookup

variable {entries : List (Value × Value)} {names : List String} {name : String} {v : Value}

/-- A key is a name exactly if it is that text. -/
theorem same_str_iff
    {key : Value} {s : String} :
    key.same (.str s) = true ↔ key = .str s := by
  cases key with
  | placeholder id type format submessages =>
      cases submessages <;> simp [Value.same]
  | _ => simp [Value.same, Value.sameAtom, Value.number?]

theorem field_cons
    (key : Value) :
    Value.field ((key, v) :: entries) name =
      if key.same (.str name) then some v else Value.field entries name := by
  simp only [Value.field, Value.lookup, List.find?_cons]
  split <;> simp_all

theorem KeysAmong.cons_iff
    {entry : Value × Value} :
    KeysAmong (entry :: entries) names ↔
      (∃ name ∈ names, entry.1 = .str name) ∧ KeysAmong entries names :=
  List.forall_mem_cons

/-- A field that is there has one of the names. -/
theorem KeysAmong.mem_of_field
    (h : KeysAmong entries names) (hfield : Value.field entries name = some v) :
    name ∈ names := by
  obtain ⟨⟨key, v'⟩, hfound, -⟩ := Option.map_eq_some_iff.mp hfield
  have hsame : key = .str name := same_str_iff.mp (by simpa using List.find?_some hfound)
  obtain ⟨name', hname', hkey⟩ := h _ (List.mem_of_find?_eq_some hfound)
  obtain rfl : name = name' := by
    simpa using hsame.symm.trans hkey
  exact hname'

/-- A key that is none of the names is not the first. -/
theorem KeysAmong.not_same
    {key : Value} (h : KeysAmong ((key, v) :: entries) names) (hname : name ∉ names) :
    key.same (.str name) = false := by
  obtain ⟨⟨name', hmem, hkey⟩, -⟩ := KeysAmong.cons_iff.mp h
  cases hsame : key.same (.str name) with
  | false => rfl
  | true =>
      cases hkey.symm.trans (same_str_iff.mp hsame)
      exact absurd hmem hname

/-- Without such a key there is no content. -/
theorem KeysAmong.childrenLevels_eq
    (h : KeysAmong entries names) (hname : "children" ∉ names) :
    childrenLevels entries = 0 := by
  induction entries with
  | nil => rfl
  | cons entry rest ih =>
      have hrest := (KeysAmong.cons_iff.mp h).2
      simp [childrenLevels, h.not_same hname, ih hrest]

/-- Without such a key there are no sub-messages. -/
theorem KeysAmong.optionsLevels_eq
    (h : KeysAmong entries names) (hname : "options" ∉ names) :
    optionsLevels entries = 0 := by
  induction entries with
  | nil => rfl
  | cons entry rest ih =>
      have hrest := (KeysAmong.cons_iff.mp h).2
      simp [optionsLevels, h.not_same hname, ih hrest]

end Lookup

section Shapes

variable {entries : List (Value × Value)} {name id : String}

theorem shape?_eq_tag_iff :
    shape? entries = some (.tag name) ↔ Value.field entries "name" = some (.str name) := by
  unfold shape?
  split <;> simp_all

theorem shape?_eq_reference_iff :
    shape? entries = some (.reference id) ↔
      (∀ s, Value.field entries "name" ≠ some (.str s)) ∧
        Value.field entries "id" = some (.str id) ∧
        Value.field entries "ref" = some (.bool true) := by
  unfold shape?
  split <;> simp_all

theorem shape?_eq_placeholder_iff :
    shape? entries = some (.placeholder id) ↔
      (∀ s, Value.field entries "name" ≠ some (.str s)) ∧
        Value.field entries "id" = some (.str id) ∧
        Value.field entries "ref" ≠ some (.bool true) := by
  unfold shape?
  split <;> simp_all

/-- The fields of a node tell its shape, and so does the shape of a node which fields it has. -/
theorem isNode_tag_iff
    (h : shape? entries = some (.tag name)) :
    IsNode (.dict entries) ↔
      KeysAmong entries (Shape.tag name).keys ∧
        ∀ v, Value.field entries "children" = some v → v ≠ .null → IsBody v := by
  have hname := shape?_eq_tag_iff.mp h
  constructor
  · intro hnode
    cases hnode with
    | tag _ hkeys hchildren => exact ⟨hkeys, hchildren⟩
    | reference _ _ hkeys _ => exact absurd (hkeys.mem_of_field hname) (by decide)
    | placeholder _ hkeys _ _ _ => exact absurd (hkeys.mem_of_field hname) (by decide)
  · rintro ⟨hkeys, hchildren⟩
    exact .tag hname hkeys hchildren

theorem isNode_reference_iff
    (h : shape? entries = some (.reference id)) :
    IsNode (.dict entries) ↔
      KeysAmong entries (Shape.reference id).keys ∧
        ∀ v, Value.field entries "type" = some v → v = .str referenceType := by
  obtain ⟨hname, hid, href⟩ := shape?_eq_reference_iff.mp h
  constructor
  · intro hnode
    cases hnode with
    | tag hname' _ _ => exact absurd hname' (hname _)
    | reference _ _ hkeys htype => exact ⟨hkeys, htype⟩
    | placeholder _ hkeys _ _ _ => exact absurd (hkeys.mem_of_field href) (by decide)
  · rintro ⟨hkeys, htype⟩
    exact .reference hid href hkeys htype

theorem isNode_placeholder_iff
    (h : shape? entries = some (.placeholder id)) :
    IsNode (.dict entries) ↔
      KeysAmong entries (Shape.placeholder id).keys ∧
        (∀ v, Value.field entries "type" = some v → v = .null ∨ ∃ s, v = .str s) ∧
        (∀ v, Value.field entries "format" = some v →
          v = .null ∨ (∃ s, v = .str s) ∨ ∃ n, v = .int n) ∧
        ∀ v, Value.field entries "options" = some v → v ≠ .null → IsOptions v := by
  obtain ⟨hname, hid, href⟩ := shape?_eq_placeholder_iff.mp h
  constructor
  · intro hnode
    cases hnode with
    | tag hname' _ _ => exact absurd hname' (hname _)
    | reference _ href' _ _ => exact absurd href' href
    | placeholder _ hkeys htype hformat hoptions => exact ⟨hkeys, htype, hformat, hoptions⟩
  · rintro ⟨hkeys, htype, hformat, hoptions⟩
    exact .placeholder hid hkeys htype hformat hoptions

/-- A node has no further keys than its shape allows. -/
theorem IsNode.keysAmong
    {shape : Shape} (hnode : IsNode (.dict entries)) (h : shape? entries = some shape) :
    KeysAmong entries shape.keys := by
  cases shape with
  | tag name => exact ((isNode_tag_iff h).mp hnode).1
  | reference id => exact ((isNode_reference_iff h).mp hnode).1
  | placeholder id => exact ((isNode_placeholder_iff h).mp hnode).1

/-- A dictionary without a shape is no node. -/
theorem not_isNode_of_shape
    (h : shape? entries = none) :
    ¬ IsNode (.dict entries) := by
  intro hnode
  cases hnode with
  | tag hname _ _ => cases h.symm.trans (shape?_eq_tag_iff.mpr hname)
  | reference hid href _ _ =>
      unfold shape? at h
      split at h <;> simp_all
  | placeholder hid _ _ _ _ =>
      unfold shape? at h
      split at h <;> simp_all

end Shapes

section Bodies

variable {items : List Value}

theorem isBody_list_iff :
    IsBody (.list items) ↔ ∀ item ∈ items, IsNode item := by
  constructor
  · rintro ⟨hitems, _, _, hnodes⟩
    cases hitems
    exact hnodes
  · intro hnodes
    exact .of_items rfl nofun nofun hnodes

theorem isBody_tuple_iff :
    IsBody (.tuple items) ↔ ∀ item ∈ items, IsNode item := by
  constructor
  · rintro ⟨hitems, _, _, hnodes⟩
    cases hitems
    exact hnodes
  · intro hnodes
    exact .of_items rfl nofun nofun hnodes

/-- Bytes are numbers, and no number is a node. -/
theorem isBody_bytes_iff
    {bytes : List UInt8} :
    IsBody (.bytes bytes) ↔ bytes = [] := by
  constructor
  · rintro ⟨hitems, _, _, hnodes⟩
    cases hitems
    cases bytes with
    | nil => rfl
    | cons b rest => cases hnodes (.int b.toNat) (by simp)
  · rintro rfl
    exact .of_items rfl nofun nofun (by simp)

/-- What cannot be iterated over is no body. -/
theorem not_isBody_of_items
    {v : Value} {m : Misuse} (h : v.items = .error m) :
    ¬ IsBody v := by
  rintro ⟨hitems, _, _, _⟩
  cases h.symm.trans hitems

/-- Sub-messages are a dictionary. -/
theorem IsOptions.exists_dict
    {v : Value} (h : IsOptions v) :
    ∃ entries, v = .dict entries := by
  cases h with
  | @dict entries _ _ => exact ⟨entries, rfl⟩

theorem isOptions_nil :
    IsOptions (.dict []) :=
  .dict nofun nofun

theorem isOptions_cons_iff
    {key v : Value} {rest : List (Value × Value)} :
    IsOptions (.dict ((key, v) :: rest)) ↔
      (∃ s, key = .str s) ∧ IsBody v ∧ IsOptions (.dict rest) := by
  constructor
  · rintro ⟨hselectors, hbodies⟩
    rw [List.forall_mem_cons] at hselectors hbodies
    exact ⟨hselectors.1, hbodies.1, .dict hselectors.2 hbodies.2⟩
  · rintro ⟨hselector, hbody, ⟨hselectors, hbodies⟩⟩
    exact .dict (List.forall_mem_cons.mpr ⟨hselector, hselectors⟩)
      (List.forall_mem_cons.mpr ⟨hbody, hbodies⟩)

end Bodies

end Plain

end MessageFormat
