import MessageFormat.Proofs.Surveys

/-!
# What a survey finds

The nodes of a message in reading order, each with the kind of the innermost body that it stands
in (`Message.occurrences`), are the nodes that stand in it at any depth
(`Message.mem_occurrences_iff`). A survey that comes through a message has added what there is
to find at each of them, and is back in the surrounding in which it began
(`Survey.visitNodes_noted`).

So the inventory of a message that is not too deep is known without the walk
(`Inventory.ofAnythingOnStack_reports`): which uses, tags and references it has, and its choices in
reading order, a placeholder before those in its sub-messages.
-/

namespace MessageFormat

/-- A node of a message, and the kind of the innermost body that it stands in. -/
structure Occurrence where
  surrounding : Surrounding
  node : Node

/-- A node stands somewhere in a message, and a body of this kind is the innermost one around it. -/
inductive Message.Holds (m : Message) : Surrounding → Node → Prop
  | direct
      {node : Node}
      (hnode : node ∈ m) :
      Holds m .message node
  | submessage
      {outer : Surrounding} {id selector : String} {type : Option String} {format : Option Format}
      {subs : Submessages} {body : Message} {node : Node}
      (houter : Holds m outer (.placeholder id type format (some subs)))
      (hbody : (selector, body) ∈ subs)
      (hnode : node ∈ body) :
      Holds m .submessage node
  | content
      {outer : Surrounding} {name : String} {children : Message} {node : Node}
      (houter : Holds m outer (.tag name (some children)))
      (hnode : node ∈ children) :
      Holds m .tag node

mutual

/-- A node, and then the nodes at any depth in its bodies. -/
def Node.occurrences (surrounding : Surrounding) : Node → List Occurrence
  | .text s => [⟨surrounding, .text s⟩]
  | .placeholder id type format none => [⟨surrounding, .placeholder id type format none⟩]
  | .placeholder id type format (some subs) =>
      ⟨surrounding, .placeholder id type format (some subs)⟩ :: Submessages.occurrences subs
  | .reference id => [⟨surrounding, .reference id⟩]
  | .tag name none => [⟨surrounding, .tag name none⟩]
  | .tag name (some children) =>
      ⟨surrounding, .tag name (some children)⟩ :: Message.occurrences .tag children

/-- The nodes at any depth in a body of this kind, in reading order. -/
def Message.occurrences (surrounding : Surrounding) : List Node → List Occurrence
  | [] => []
  | node :: rest => node.occurrences surrounding ++ Message.occurrences surrounding rest

/-- The nodes at any depth in sub-messages, in the order of the selectors. -/
def Submessages.occurrences : List (String × List Node) → List Occurrence
  | [] => []
  | (_, body) :: rest => Message.occurrences .submessage body ++ Submessages.occurrences rest

end

theorem Node.mem_occurrences_self
    (surrounding : Surrounding) (node : Node) :
    ⟨surrounding, node⟩ ∈ node.occurrences surrounding := by
  cases node with
  | text s => exact List.mem_cons_self
  | placeholder id type format subs => cases subs <;> exact List.mem_cons_self
  | reference id => exact List.mem_cons_self
  | tag name children => cases children <;> exact List.mem_cons_self

theorem Message.mem_occurrences_of_mem
    {surrounding : Surrounding} {m : Message} {node : Node} {o : Occurrence}
    (hnode : node ∈ m) (ho : o ∈ node.occurrences surrounding) :
    o ∈ occurrences surrounding m := by
  induction m with
  | nil => cases hnode
  | cons first rest ih =>
      rw [occurrences, List.mem_append]
      rcases List.mem_cons.mp hnode with rfl | hrest
      · exact Or.inl ho
      · exact Or.inr (ih hrest)

theorem Submessages.mem_occurrences_of_mem
    {subs : Submessages} {selector : String} {body : Message} {o : Occurrence}
    (hbody : (selector, body) ∈ subs) (ho : o ∈ Message.occurrences .submessage body) :
    o ∈ occurrences subs := by
  induction subs with
  | nil => cases hbody
  | cons entry rest ih =>
      rw [occurrences, List.mem_append]
      rcases List.mem_cons.mp hbody with rfl | hrest
      · exact Or.inl ho
      · exact Or.inr (ih hrest)

section Occurrences

variable {m : Message}

mutual

theorem Node.holds_of_mem_occurrences
    {surrounding : Surrounding} (node : Node) (hnode : m.Holds surrounding node)
    {o : Occurrence} (ho : o ∈ node.occurrences surrounding) :
    m.Holds o.surrounding o.node := by
  match node with
  | .text _ | .placeholder _ _ _ none | .reference _ | .tag _ none =>
      obtain rfl := List.mem_singleton.mp ho
      exact hnode
  | .placeholder id type format (some subs) =>
      rcases List.mem_cons.mp ho with rfl | hinside
      · exact hnode
      · exact Submessages.holds_of_mem_occurrences subs
          (fun _ _ hbody _ hmem => .submessage hnode hbody hmem) hinside
  | .tag name (some children) =>
      rcases List.mem_cons.mp ho with rfl | hinside
      · exact hnode
      · exact Message.holds_of_mem_occurrences children (fun _ hmem => .content hnode hmem) hinside

theorem Message.holds_of_mem_occurrences
    {surrounding : Surrounding} (body : List Node)
    (hbody : ∀ node ∈ body, m.Holds surrounding node)
    {o : Occurrence} (ho : o ∈ Message.occurrences surrounding body) :
    m.Holds o.surrounding o.node := by
  match body with
  | [] => cases ho
  | node :: rest =>
      rcases List.mem_append.mp ho with hfirst | hrest
      · exact Node.holds_of_mem_occurrences node (hbody node List.mem_cons_self) hfirst
      · exact Message.holds_of_mem_occurrences rest
          (fun node hnode => hbody node (List.mem_cons_of_mem _ hnode)) hrest

theorem Submessages.holds_of_mem_occurrences
    (subs : List (String × List Node))
    (hsubs : ∀ selector body, (selector, body) ∈ subs → ∀ node ∈ body, m.Holds .submessage node)
    {o : Occurrence} (ho : o ∈ Submessages.occurrences subs) :
    m.Holds o.surrounding o.node := by
  match subs with
  | [] => cases ho
  | (selector, body) :: rest =>
      rcases List.mem_append.mp ho with hfirst | hrest
      · exact Message.holds_of_mem_occurrences body (hsubs selector body List.mem_cons_self) hfirst
      · exact Submessages.holds_of_mem_occurrences rest
          (fun selector body hmem => hsubs selector body (List.mem_cons_of_mem _ hmem)) hrest

end

/-- With a node that a message holds, it holds what stands in the bodies of the node. -/
theorem Message.Holds.mem_occurrences
    {surrounding : Surrounding} {node : Node} (h : m.Holds surrounding node)
    {o : Occurrence} (ho : o ∈ node.occurrences surrounding) :
    o ∈ Message.occurrences .message m := by
  induction h with
  | direct hnode => exact Message.mem_occurrences_of_mem hnode ho
  | submessage houter hbody hnode ih =>
      have hinside := Message.mem_occurrences_of_mem hnode ho
      exact ih (List.mem_cons_of_mem _ (Submessages.mem_occurrences_of_mem hbody hinside))
  | content houter hnode ih =>
      exact ih (List.mem_cons_of_mem _ (Message.mem_occurrences_of_mem hnode ho))

/-- The occurrences in a message are the nodes that it holds. -/
theorem Message.mem_occurrences_iff
    {o : Occurrence} :
    o ∈ Message.occurrences .message m ↔ m.Holds o.surrounding o.node := by
  constructor
  · exact Message.holds_of_mem_occurrences m fun _ hnode => .direct hnode
  · intro h
    exact h.mem_occurrences (o.node.mem_occurrences_self o.surrounding)

end Occurrences

/-- The name and the type with which a node uses a placeholder. -/
def Node.use? : Node → Option (String × Option String)
  | .placeholder id type _ _ => some (id, type)
  | .reference id => some (id, some referenceType)
  | _ => none

/-- The choice among sub-messages that a node is. -/
def Node.choice? : Node → Option (Inventory.Choice String)
  | .placeholder id type _ (some subs) => some ⟨id, type.getD "", subs.map (·.1)⟩
  | _ => none

/-- The name of the tag that a node is. -/
def Node.tagName? : Node → Option String
  | .tag name _ => some name
  | _ => none

/-- Whether a node is a reference. -/
def Node.isReference : Node → Bool
  | .reference _ => true
  | _ => false

/-- The use of a placeholder that an occurrence is. -/
def Occurrence.use? (o : Occurrence) : Option (Inventory.Use String) :=
  o.node.use?.map fun (name, type) => ⟨name, type, o.surrounding⟩

namespace Inventory

/-- Everything that there is to find at some occurrences, also what is found before. -/
def ofOccurrences (os : List Occurrence) : Inventory String where
  uses := os.filterMap (·.use?)
  choices := os.filterMap (·.node.choice?)
  tags := os.filterMap (·.node.tagName?)
  hasReferences := os.any (·.node.isReference)

theorem join_ofOccurrences_append
    (inv : Inventory String) (os more : List Occurrence) :
    inv.join (ofOccurrences (os ++ more)) =
      (inv.join (ofOccurrences os)).join (ofOccurrences more) := by
  simp [join, ofOccurrences, List.foldl_append, Bool.or_assoc]

end Inventory

namespace Survey

/-- A step that comes through has found what there is to find at some occurrences, and is back
in its surrounding. -/
def Noted (s : Survey String) (os : List Occurrence) (step : Step String Guard.Full) : Prop :=
  step.outcome = .ok () →
    step.survey.inventory = s.inventory.join (Inventory.ofOccurrences os) ∧
      step.survey.surrounding = s.surrounding

section Noted

variable {s t : Survey String} {os more : List Occurrence} {step : Step String Guard.Full}
  {walk : Survey String → Step String Guard.Full}

theorem noted_done :
    Noted s [] s.done := by
  intro _
  simp [done, Inventory.join, Inventory.ofOccurrences]

/-- What was noted before a step comes before what the step finds. -/
theorem Noted.from
    (h : Noted t more step)
    (hinventory : t.inventory = s.inventory.join (Inventory.ofOccurrences os))
    (hsurrounding : t.surrounding = s.surrounding) :
    Noted s (os ++ more) step := by
  intro hok
  obtain ⟨hfound, hback⟩ := h hok
  refine ⟨?_, hback.trans hsurrounding⟩
  rw [hfound, hinventory, Inventory.join_ofOccurrences_append]

/-- One part after another. -/
theorem Noted.andThen
    (h : Noted s os step)
    (hnext : ∀ t : Survey String, t.surrounding = s.surrounding → Noted t more (walk t)) :
    Noted s (os ++ more) (step.andThen walk) := by
  obtain ⟨t, outcome⟩ := step
  cases outcome with
  | error full =>
      intro hok
      cases hok
  | ok u =>
      obtain ⟨hinventory, hsurrounding⟩ := h rfl
      exact (hnext t hsurrounding).from hinventory hsurrounding

/-- A nested body is left in the surrounding that it was entered from. -/
theorem Noted.nested
    {surrounding : Surrounding}
    (h : ∀ t : Survey String, t.surrounding = surrounding → Noted t os (walk t)) :
    Noted s os (s.nested surrounding id walk) := by
  cases henter : s.guard.enter with
  | error full =>
      simp only [Survey.nested, henter]
      intro hok
      cases hok
  | ok inner =>
      have hbody := h { s with surrounding := surrounding, guard := inner } rfl
      simp only [Survey.nested, henter]
      generalize walk { s with surrounding := surrounding, guard := inner } = step at hbody ⊢
      obtain ⟨t, outcome⟩ := step
      cases outcome with
      | error full =>
          intro hok
          cases hok
      | ok u => exact fun _ => ⟨(hbody rfl).1, rfl⟩

end Noted

section Notes

variable (s : Survey String)

attribute [local simp] Inventory.join Inventory.ofOccurrences Occurrence.use? Node.use? Node.choice?
  Node.tagName? Node.isReference

theorem inventory_text
    (text : String) :
    s.inventory = s.inventory.join (Inventory.ofOccurrences [⟨s.surrounding, .text text⟩]) := by
  simp

theorem inventory_addUse
    (id : String) (type : Option String) (format : Option Format) :
    (s.addUse id type).inventory = s.inventory.join
      (Inventory.ofOccurrences [⟨s.surrounding, .placeholder id type format none⟩]) := by
  simp [addUse]

theorem inventory_addChoice
    (id : String) (type : Option String) (format : Option Format) (subs : Submessages) :
    ((s.addUse id type).addChoice id (type.getD "") (subs.map (·.1))).inventory =
      s.inventory.join
        (Inventory.ofOccurrences [⟨s.surrounding, .placeholder id type format (some subs)⟩]) := by
  simp [addUse, addChoice]

theorem inventory_markReference
    (id : String) :
    (s.markReference.addUse id (some referenceType)).inventory =
      s.inventory.join (Inventory.ofOccurrences [⟨s.surrounding, .reference id⟩]) := by
  simp [addUse, markReference]

theorem inventory_addTag
    (name : String) (children : Option Message) :
    (s.addTag name).inventory =
      s.inventory.join (Inventory.ofOccurrences [⟨s.surrounding, .tag name children⟩]) := by
  simp [addTag]

end Notes

mutual

theorem visitNode_noted
    (s : Survey String) (node : Node) :
    Noted s (node.occurrences s.surrounding) (visitNode s node) := by
  match node with
  | .text text => exact fun _ => ⟨inventory_text s text, rfl⟩
  | .placeholder id type format none => exact fun _ => ⟨inventory_addUse s id type format, rfl⟩
  | .placeholder id type format (some subs) =>
      have hsubs := visitSubmessages_noted
        ((s.addUse id type).addChoice id (type.getD "") (subs.map (·.1))) subs
      have hnoted : Noted s
          ([⟨s.surrounding, .placeholder id type format (some subs)⟩] ++
            Submessages.occurrences subs)
          (visitNode s (.placeholder id type format (some subs))) := by
        rw [visitNode]
        exact hsubs.from (inventory_addChoice s id type format subs) rfl
      exact hnoted
  | .reference id => exact fun _ => ⟨inventory_markReference s id, rfl⟩
  | .tag name none => exact fun _ => ⟨inventory_addTag s name none, rfl⟩
  | .tag name (some []) => exact fun _ => ⟨inventory_addTag s name (some []), rfl⟩
  | .tag name (some (child :: rest)) =>
      have hbody : Noted (s.addTag name) (Message.occurrences .tag (child :: rest))
          ((s.addTag name).nested .tag id fun inner => visitNodes inner (child :: rest)) := by
        refine Noted.nested ?_
        intro t ht
        rw [← ht]
        exact visitNodes_noted t (child :: rest)
      have hnoted : Noted s
          ([⟨s.surrounding, .tag name (some (child :: rest))⟩] ++
            Message.occurrences .tag (child :: rest))
          (visitNode s (.tag name (some (child :: rest)))) :=
        hbody.from (inventory_addTag s name (some (child :: rest))) rfl
      exact hnoted

theorem visitNodes_noted
    (s : Survey String) (m : List Node) :
    Noted s (Message.occurrences s.surrounding m) (visitNodes s m) := by
  match m with
  | [] => exact noted_done
  | node :: rest =>
      rw [visitNodes]
      refine (visitNode_noted s node).andThen ?_
      intro t ht
      rw [← ht]
      exact visitNodes_noted t rest

theorem visitSubmessages_noted
    (s : Survey String) (subs : List (String × List Node)) :
    Noted s (Submessages.occurrences subs) (visitSubmessages s subs) := by
  match subs with
  | [] => exact noted_done
  | (selector, body) :: rest =>
      rw [visitSubmessages]
      refine Noted.andThen (Noted.nested ?_) ?_
      · intro t ht
        rw [← ht]
        exact visitNodes_noted t body
      · intro t _
        exact visitSubmessages_noted t rest

end

/-- Of a message that is not too deep, a survey finds what there is to find in it. -/
theorem visit_fresh
    {limit : Int} (hlimit : 0 ≤ limit) {m : Message} (hdepth : (Message.depth m : Int) ≤ limit) :
    ((fresh limit).visit m).outcome = .ok () ∧
      ((fresh limit).visit m).survey.inventory =
        Inventory.join {} (Inventory.ofOccurrences (Message.occurrences .message m)) := by
  obtain ⟨⟨⟩, hok⟩ := (visit_bounds hlimit m).eq_ok trivial (by simpa using hdepth)
  exact ⟨hok, (visitNodes_noted (fresh limit) m hok).1⟩

end Survey

namespace Inventory

section Distinct

variable {α : Type} [BEq α] [LawfulBEq α] {x : α} {known xs : List α}

theorem mem_addNew_iff
    {y : α} :
    x ∈ addNew known y ↔ x ∈ known ∨ x = y := by
  unfold addNew
  split
  · next hknown =>
      rw [List.contains_iff_mem] at hknown
      constructor
      · exact Or.inl
      · rintro (hx | rfl)
        · exact hx
        · exact hknown
  · rw [List.mem_append, List.mem_singleton]

theorem mem_foldl_addNew_iff :
    x ∈ xs.foldl addNew known ↔ x ∈ known ∨ x ∈ xs := by
  induction xs generalizing known with
  | nil => simp
  | cons y xs ih => rw [List.foldl_cons, ih, mem_addNew_iff, List.mem_cons, or_assoc]

theorem nodup_foldl_addNew
    (xs : List α) (hknown : known.Nodup) :
    (xs.foldl addNew known).Nodup := by
  induction xs generalizing known with
  | nil => exact hknown
  | cons y xs ih =>
      refine ih ?_
      unfold addNew
      split
      · exact hknown
      · next hnew =>
          rw [List.contains_iff_mem] at hnew
          refine List.nodup_append.mpr ⟨hknown, by simp, ?_⟩
          rintro a ha b hb rfl
          exact hnew (List.mem_singleton.mp hb ▸ ha)

theorem mem_distinct_iff :
    x ∈ distinct xs ↔ x ∈ xs := by
  simp [distinct, mem_foldl_addNew_iff]

end Distinct

section Map

variable {α β : Type} [BEq α] [BEq β] {f : α → β}

theorem distinct_map
    (hf : ∀ x y, (f x == f y) = (x == y)) (xs : List α) :
    distinct (xs.map f) = (distinct xs).map f := by
  have hfold : ∀ known : List α,
      (xs.map f).foldl addNew (known.map f) = (xs.foldl addNew known).map f := by
    induction xs with
    | nil => exact fun _ => rfl
    | cons x xs ih =>
        intro known
        rw [List.map_cons, List.foldl_cons, List.foldl_cons, addNew_map hf, ih]
  exact hfold []

end Map

/-- The queries of an inventory answer alike for its names as values. -/
theorem requires_toValues
    (inv : Inventory String) (name : String) :
    (inv.map Value.str).requires (.str name) = inv.requires name := by
  have hnames : (inv.map Value.str).names = inv.names.map .str := by
    rw [names, names, ← distinct_map Value.str_beq_str]
    simp [Inventory.map, Function.comp_def]
  rw [requires, requires, hnames, contains_map Value.str_beq_str]

theorem typesOf_toValues
    (inv : Inventory String) (name : String) :
    (inv.map Value.str).typesOf (.str name) = (inv.typesOf name).map (Option.map .str) := by
  have htype : ∀ t t' : Option String,
      (t.map Value.str == t'.map Value.str) = (t == t') := by
    intro t t'
    cases t <;> cases t' <;> simp [Value.str_beq_str]
  rw [typesOf, typesOf, ← distinct_map htype]
  simp [Inventory.map, List.filter_map, Function.comp_def, Value.str_beq_str]

theorem selectorsOf_toValues
    (inv : Inventory String) (name : String) :
    (inv.map Value.str).selectorsOf (.str name) = (inv.selectorsOf name).map .str := by
  rw [selectorsOf, selectorsOf, ← distinct_map Value.str_beq_str]
  simp [Inventory.map, List.filter_map, Function.comp_def, Value.str_beq_str, List.flatMap_map,
    List.map_flatMap]

/-- What an inventory tells of a message: the different uses and tags in it, its choices in reading
order, and whether it has a reference. The queries tell the same of each name. -/
structure Reports (inv : Inventory String) (m : Message) : Prop where
  nodup_uses : inv.uses.Nodup
  mem_uses_iff : ∀ use, use ∈ inv.uses ↔
    ∃ node, m.Holds use.surrounding node ∧ node.use? = some (use.name, use.type)
  choices_eq : inv.choices = (Message.occurrences .message m).filterMap (·.node.choice?)
  nodup_tags : inv.tags.Nodup
  mem_tags_iff : ∀ name, name ∈ inv.tags ↔
    ∃ surrounding children, m.Holds surrounding (.tag name children)
  hasReferences_iff : inv.hasReferences = true ↔
    ∃ surrounding id, m.Holds surrounding (.reference id)
  mem_names_iff : ∀ name, name ∈ inv.names ↔ ∃ use ∈ inv.uses, use.name = name
  requires_iff : ∀ name, inv.requires name = true ↔ ∃ use ∈ inv.uses, use.name = name
  mem_typesOf_iff : ∀ name type, type ∈ inv.typesOf name ↔
    ∃ use ∈ inv.uses, use.name = name ∧ use.type = type
  mem_selectorsOf_iff : ∀ name selector, selector ∈ inv.selectorsOf name ↔
    ∃ choice ∈ inv.choices, choice.name = name ∧ selector ∈ choice.selectors

/-- What there is to find in a message, each thing once, tells of the message. -/
theorem reports_ofOccurrences
    (m : Message) :
    (join {} (ofOccurrences (Message.occurrences .message m))).Reports m := by
  have hnames : ∀ name, name ∈ names (join {} (ofOccurrences (Message.occurrences .message m))) ↔
      ∃ use ∈ (join {} (ofOccurrences (Message.occurrences .message m))).uses, use.name = name := by
    intro name
    rw [names, mem_distinct_iff, List.mem_map]
  constructor
  case nodup_uses => exact nodup_foldl_addNew _ List.nodup_nil
  case nodup_tags => exact nodup_foldl_addNew _ List.nodup_nil
  case choices_eq => rfl
  case mem_names_iff => exact hnames
  case requires_iff =>
    intro name
    rw [requires, List.contains_iff_mem, hnames]
  case mem_uses_iff =>
    intro use
    simp only [join, ofOccurrences, mem_foldl_addNew_iff, List.not_mem_nil, false_or,
      List.mem_filterMap, Message.mem_occurrences_iff, Occurrence.use?, Option.map_eq_some_iff]
    constructor
    · rintro ⟨o, hholds, ⟨name, type⟩, huse, rfl⟩
      exact ⟨o.node, hholds, huse⟩
    · rintro ⟨node, hholds, huse⟩
      exact ⟨⟨use.surrounding, node⟩, hholds, _, huse, rfl⟩
  case mem_tags_iff =>
    intro name
    simp only [join, ofOccurrences, mem_foldl_addNew_iff, List.not_mem_nil, false_or,
      List.mem_filterMap, Message.mem_occurrences_iff]
    constructor
    · rintro ⟨⟨surrounding, node⟩, hholds, hname⟩
      cases node with
      | tag tagName children =>
          obtain rfl := Option.some.inj hname
          exact ⟨surrounding, children, hholds⟩
      | text | placeholder | reference => cases hname
    · rintro ⟨surrounding, children, hholds⟩
      exact ⟨⟨surrounding, .tag name children⟩, hholds, rfl⟩
  case hasReferences_iff =>
    simp only [join, ofOccurrences, Bool.false_or, List.any_eq_true, Message.mem_occurrences_iff]
    constructor
    · rintro ⟨⟨surrounding, node⟩, hholds, hreference⟩
      cases node with
      | reference id => exact ⟨surrounding, id, hholds⟩
      | text | placeholder | tag => cases hreference
    · rintro ⟨surrounding, id, hholds⟩
      exact ⟨⟨surrounding, .reference id⟩, hholds, rfl⟩
  case mem_typesOf_iff =>
    intro name type
    rw [typesOf, mem_distinct_iff]
    simp [and_assoc]
  case mem_selectorsOf_iff =>
    intro name selector
    rw [selectorsOf, mem_distinct_iff]
    simp [and_assoc]

/-- The inventory of a message that is not too deep tells exactly what occurs in it, and its queries
agree with it. -/
theorem ofAnythingOnStack_reports
    (frames : Int) {m : Message}
    (hdepth : (Message.depth m : Int) ≤ clampDepth frames standardReserve standardDepth) :
    ∃ inv : Inventory String,
      (ofAnythingOnStack frames m.toValue).outcome = .ok (inv.map .str) ∧
      inv.Reports m ∧
      ∀ name,
        (inv.map Value.str).requires (.str name) = inv.requires name ∧
        (inv.map Value.str).typesOf (.str name) = (inv.typesOf name).map (Option.map .str) ∧
        (inv.map Value.str).selectorsOf (.str name) = (inv.selectorsOf name).map .str := by
  obtain ⟨hok, hinventory⟩ := Survey.visit_fresh (clampDepth_nonneg frames) hdepth
  refine ⟨_, ?_, reports_ofOccurrences m, ?_⟩
  · rw [ofAnythingOnStack_outcome, hok, ← hinventory]
    rfl
  · intro name
    exact ⟨requires_toValues _ name, typesOf_toValues _ name, selectorsOf_toValues _ name⟩

/-- A number with a placeholder in a tag in a sub-message, one behind the tag, and one behind the
number. -/
def siblings : Message :=
  [.placeholder "n" (some "plural") none (some [
    ("one", [.reference "n", .tag "b" (some [.bare "k"]), .bare "k"]), ("other", [])]), .bare "k"]

/-- The placeholder is used in each of the three surroundings. -/
theorem ofAnythingOnStack_reports_siblings :
    (Message.depth siblings : Int) ≤ clampDepth 1000 standardReserve standardDepth ∧
      ∃ inv : Inventory String,
        (ofAnythingOnStack 1000 (Message.toValue siblings)).outcome = .ok (inv.map .str) ∧
        inv.Reports siblings ∧
        ∀ surrounding, ⟨"k", none, surrounding⟩ ∈ inv.uses := by
  refine ⟨by decide, ?_⟩
  obtain ⟨inv, houtcome, hreports, -⟩ := ofAnythingOnStack_reports 1000 (m := siblings) (by decide)
  refine ⟨inv, houtcome, hreports, ?_⟩
  intro surrounding
  have hnumber : Message.Holds siblings .message _ := .direct List.mem_cons_self
  have htag : Message.Holds siblings .submessage (.tag "b" (some [.bare "k"])) :=
    .submessage hnumber List.mem_cons_self (by simp)
  rw [hreports.mem_uses_iff]
  refine ⟨.bare "k", ?_, rfl⟩
  cases surrounding with
  | message => exact .direct (by simp [siblings])
  | submessage => exact .submessage hnumber List.mem_cons_self (by simp)
  | tag => exact .content htag List.mem_cons_self

end Inventory

end MessageFormat
