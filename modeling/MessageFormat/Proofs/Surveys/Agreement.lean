import MessageFormat.Loose.Inventory

/-!
# Surveys of messages and of values

A message is surveyed as what it is, and a tree that is no message as a value. The two walks
agree: a message that is surveyed as a value gives the same findings, with its names as values
(`visitNodes_toValues`). So all trees may be taken for values (`ofAnything_eq`).
-/

namespace MessageFormat

/-- The texts are the same as values exactly if they are the same. -/
theorem Value.str_beq_str
    (s t : String) :
    (Value.str s == Value.str t) = (s == t) := by
  change Value.same (.str s) (.str t) = (s == t)
  simp [Value.same, Value.sameAtom]

theorem Submessages.map_fst_toEntries
    (subs : Submessages) :
    (toEntries subs).map (·.1) = (subs.map (·.1)).map .str := by
  induction subs with
  | nil => rfl
  | cons entry rest ih =>
      obtain ⟨selector, body⟩ := entry
      rw [toEntries, List.map_cons, List.map_cons, List.map_cons, ih]

namespace Inventory

section Map

variable {α β : Type} [BEq α] [BEq β] {f : α → β}

theorem contains_map
    (hf : ∀ x y, (f x == f y) = (x == y)) (known : List α) (x : α) :
    (known.map f).contains (f x) = known.contains x := by
  induction known with
  | nil => rfl
  | cons y known ih => rw [List.map_cons, List.contains_cons, List.contains_cons, hf, ih]

theorem addNew_map
    (hf : ∀ x y, (f x == f y) = (x == y)) (known : List α) (x : α) :
    addNew (known.map f) (f x) = (addNew known x).map f := by
  unfold addNew
  rw [contains_map hf]
  split
  · rfl
  · simp

end Map

theorem Use.beq_iff
    {α : Type} [BEq α] {u u' : Use α} :
    (u == u') = true ↔
      (u.name == u'.name) = true ∧ (u.type == u'.type) = true ∧ u.surrounding = u'.surrounding := by
  obtain ⟨name, type, surrounding⟩ := u
  obtain ⟨name', type', surrounding'⟩ := u'
  change (name == name' && (type == type' && surrounding == surrounding')) = true ↔ _
  simp

/-- A use with its name and type as values. -/
def Use.toValue (u : Use String) : Use Value :=
  ⟨.str u.name, u.type.map .str, u.surrounding⟩

theorem Use.toValue_beq
    (u u' : Use String) :
    (u.toValue == u'.toValue) = (u == u') := by
  rw [Bool.eq_iff_iff, Use.beq_iff, Use.beq_iff]
  obtain ⟨name, type, surrounding⟩ := u
  obtain ⟨name', type', surrounding'⟩ := u'
  simp only [Use.toValue, Value.str_beq_str]
  cases type <;> cases type' <;> simp [Value.str_beq_str]

end Inventory

namespace Survey

/-- The same survey with names as values. -/
def toValues (s : Survey String) : Survey Value where
  inventory := s.inventory.map .str
  surrounding := s.surrounding
  guard := s.guard

theorem done_toValues
    (s : Survey String) :
    Step.toValues s.done = s.toValues.done := by
  rfl

theorem addUse_toValues
    (s : Survey String) (id : String) (type : Option String) :
    (s.addUse id type).toValues = s.toValues.addUse (.str id) (type.map .str) := by
  have huses := Inventory.addNew_map Inventory.Use.toValue_beq s.inventory.uses
    ⟨id, type, s.surrounding⟩
  simp only [addUse, toValues, Inventory.map]
  congr 2
  exact huses.symm

theorem addTag_toValues
    (s : Survey String) (name : String) :
    (s.addTag name).toValues = s.toValues.addTag (.str name) := by
  have htags := Inventory.addNew_map Value.str_beq_str s.inventory.tags name
  simp only [addTag, toValues, Inventory.map, htags]

theorem addChoice_toValues
    (s : Survey String) (id type : String) (selectors : List String) :
    (s.addChoice id type selectors).toValues =
      s.toValues.addChoice (.str id) (.str type) (selectors.map .str) := by
  simp [addChoice, toValues, Inventory.map]

/-- Texts are usable as keys. -/
theorem useValue_str
    (s : Survey String) (id : String) (type : Option String) :
    s.toValues.useValue (.str id) (type.elim .null .str) =
      Step.toValues (s.addUse id type).done := by
  cases type with
  | none =>
      rw [done_toValues, addUse_toValues]
      rfl
  | some t =>
      rw [done_toValues, addUse_toValues]
      rfl

/-- A placeholder without type chooses like one whose type is empty. -/
theorem shownType_elim
    (type : Option String) :
    (if (type.elim Value.null .str).isVoid then Value.str "" else type.elim .null .str) =
      .str (type.getD "") := by
  cases type with
  | none => rfl
  | some t =>
      by_cases ht : t = ""
      · subst ht
        rfl
      · have hvoid : (Value.str t).isVoid = false := by
          simp [Value.isVoid, ht]
        simp [hvoid]

theorem tagValue_str
    (s : Survey String) (name : String) :
    s.toValues.tagValue (.str name) = Step.toValues (s.addTag name).done := by
  rw [done_toValues, addTag_toValues]
  rfl

theorem andThen_toValues
    {next : Survey String → Step String Guard.Full} {next' : Survey Value → Step Value Fault}
    (step : Step String Guard.Full) (hnext : ∀ t, (next t).toValues = next' t.toValues) :
    (step.andThen next).toValues = step.toValues.andThen next' := by
  obtain ⟨s, outcome⟩ := step
  cases outcome with
  | error full => rfl
  | ok u => exact hnext s

theorem nested_toValues
    {walk : Survey String → Step String Guard.Full} {walk' : Survey Value → Step Value Fault}
    (s : Survey String) (surrounding : Surrounding)
    (hwalk : ∀ t, (walk t).toValues = walk' t.toValues) :
    (s.nested surrounding id walk).toValues = s.toValues.nested surrounding tooDeep walk' := by
  have hguard : s.toValues.guard = s.guard := rfl
  unfold nested
  rw [hguard]
  cases s.guard.enter with
  | error full => rfl
  | ok inner =>
      have hbody := hwalk { s with surrounding := surrounding, guard := inner }
      change _ = walk' { s.toValues with surrounding := surrounding, guard := inner } at hbody
      simp only [← hbody]
      generalize walk { s with surrounding := surrounding, guard := inner } = step
      obtain ⟨t, outcome⟩ := step
      cases outcome with
      | error full => rfl
      | ok u => rfl

mutual

theorem visitNode_toValues
    (s : Survey String) (node : Node) :
    (visitNode s node).toValues = visitValue s.toValues node.toValue := by
  match node with
  | .text text => rfl
  | .placeholder id type format none => exact (useValue_str s id type).symm
  | .placeholder id type format (some subs) =>
      rw [visitNode, Node.toValue, visitValue, useValue_str]
      have hsubs := visitSubmessages_toValues
        ((s.addUse id type).addChoice id (type.getD "") (subs.map (·.1))) subs
      rw [addChoice_toValues] at hsubs
      rw [hsubs, done_toValues, Submessages.map_fst_toEntries, shownType_elim]
      rfl
  | .reference id =>
      exact (useValue_str s.markReference id (some referenceType)).symm
  | .tag name none =>
      rw [visitNode, Node.toValue, visitValue, tagValue_str]
      rfl
  | .tag name (some []) =>
      rw [visitNode, Node.toValue, visitValue, tagValue_str]
      rfl
  | .tag name (some (child :: rest)) =>
      have hbody : ((s.addTag name).nested .tag id fun inner =>
            visitNodes inner (child :: rest)).toValues =
          (s.addTag name).toValues.nested .tag tooDeep fun inner =>
            visitBody inner (.list (Message.toItems (child :: rest))) :=
        nested_toValues (s.addTag name) .tag fun t => visitNodes_toValues t (child :: rest)
      rw [Node.toValue, visitValue, tagValue_str]
      exact hbody

theorem visitNodes_toValues
    (s : Survey String) (m : List Node) :
    (visitNodes s m).toValues = visitItems s.toValues (Message.toItems m) := by
  match m with
  | [] => rfl
  | node :: rest =>
      rw [visitNodes, Message.toItems, visitItems, ← visitNode_toValues s node]
      exact andThen_toValues _ fun t => visitNodes_toValues t rest

theorem visitSubmessages_toValues
    (s : Survey String) (subs : List (String × List Node)) :
    (visitSubmessages s subs).toValues = visitEntries s.toValues (Submessages.toEntries subs) := by
  match subs with
  | [] => rfl
  | (selector, body) :: rest =>
      have hbody : (s.nested .submessage id fun inner => visitNodes inner body).toValues =
          s.toValues.nested .submessage tooDeep fun inner =>
            visitBody inner (.list (Message.toItems body)) :=
        nested_toValues s .submessage fun t => visitNodes_toValues t body
      rw [visitSubmessages, Submessages.toEntries, visitEntries, ← hbody]
      exact andThen_toValues _ fun t => visitSubmessages_toValues t rest

end

theorem visitEach_toValues
    (s : Survey String) (ms : List Message) :
    (s.visitEach ms).map Step.toValues = s.toValues.visitEachValue (ms.map Message.toValue) := by
  induction ms generalizing s with
  | nil => rfl
  | cons m rest ih =>
      have hm : (s.visit m).toValues = visitBody s.toValues m.toValue := visitNodes_toValues s m
      rw [visitEach, List.map_cons, List.map_cons, visitEachValue, ih, ← hm]
      rfl

theorem eq_map_of_mapM
    {vs : List Value} {messages : List Message} (h : vs.mapM Value.toMessage? = some messages) :
    vs = messages.map Message.toValue := by
  induction vs generalizing messages with
  | nil =>
      cases h
      rfl
  | cons v vs ih =>
      simp only [List.mapM_cons, Option.bind_eq_bind, Option.bind_eq_some_iff, Option.pure_def,
        Option.some.injEq] at h
      obtain ⟨m, hm, rest, hrest, rfl⟩ := h
      rw [List.map_cons, ← ih hrest, ← Value.toMessage?_eq_some_iff.mp hm]

/-- All trees may be taken for values. -/
theorem ofAnything_eq
    (limit : Int) (vs : List Value) :
    ofAnything limit vs = (fresh limit).visitEachValue vs := by
  unfold ofAnything
  split
  · next messages hmessages =>
      rw [visitEach_toValues, eq_map_of_mapM hmessages]
      rfl
  · rfl

end Survey

end MessageFormat
