import MessageFormat.Proofs.Depths
import MessageFormat.Proofs.Sameness
import MessageFormat.Proofs.Surveys.Agreement

/-!
# Surveys of one message after another

A survey that goes on after a message finds what a fresh survey finds, and adds it to what it
has (`Inventory.join`). Its guard is back where it was after each message, even one that it
could not go through. The surrounding is not: it stays that of the body in which the survey gave
up, and what later stands in a message itself is noted as standing there (`Inventory.within`).

A part of a walk is steady if it does not look at what was found before (`Survey.Steady`).
Steady parts compose, so the walk over a whole tree is steady (`visitBody_steady`), and a survey
after others is known from the survey of the last tree alone
(`Survey.ofAnythingOnStack_concat`).
-/

namespace MessageFormat

/-- Where something stands if the message around it stands in this body. -/
def Surrounding.within (outer : Surrounding) : Surrounding → Surrounding
  | .message => outer
  | inner => inner

@[simp] theorem Surrounding.within_message
    (inner : Surrounding) :
    Surrounding.message.within inner = inner := by
  cases inner <;> rfl

theorem Surrounding.within_of_ne
    (outer : Surrounding) {inner : Surrounding} (h : inner ≠ .message) :
    outer.within inner = inner := by
  cases inner with
  | message => exact absurd rfl h
  | submessage => rfl
  | tag => rfl

theorem Surrounding.within_eq_message_iff
    {outer inner : Surrounding} :
    outer.within inner = .message ↔ outer = .message ∧ inner = .message := by
  cases inner <;> simp [Surrounding.within]

namespace Inventory

/-- The use of a placeholder if the message around it stands in this body. -/
def Use.within {α : Type} (outer : Surrounding) (u : Use α) : Use α :=
  { u with surrounding := outer.within u.surrounding }

/-- What was found if the message around it stands in this body. -/
def within {α : Type} (outer : Surrounding) (inv : Inventory α) : Inventory α :=
  { inv with uses := inv.uses.map (Use.within outer) }

/-- What was found, with what was found later. -/
def join {α : Type} [BEq α] (inv later : Inventory α) : Inventory α where
  uses := later.uses.foldl addNew inv.uses
  choices := inv.choices ++ later.choices
  tags := later.tags.foldl addNew inv.tags
  hasReferences := inv.hasReferences || later.hasReferences

/-- In the message itself, everything stands where it stands. -/
theorem within_message
    {α : Type} (inv : Inventory α) :
    inv.within .message = inv := by
  have huse : Use.within (α := α) .message = id := by
    funext u
    simp [Use.within]
  simp [within, huse]

section AddNew

variable {α : Type} [BEq α] {f : α → α} {known xs : List α} {x u : α}

theorem contains_addNew
    (h : known.contains u = true) (x : α) :
    (addNew known x).contains u = true := by
  unfold addNew
  split
  · exact h
  · rw [List.contains_append, h, Bool.true_or]

theorem contains_foldl_addNew
    (xs : List α) (h : known.contains u = true) :
    (xs.foldl addNew known).contains u = true := by
  induction xs generalizing known with
  | nil => exact h
  | cons x xs ih => exact ih (contains_addNew h x)

variable (htrans : ∀ x y z : α, (x == y) = true → (y == z) = true → (x == z) = true)
include htrans

/-- What equals something that is added is there afterwards. -/
theorem contains_addNew_of_beq
    (known : List α) (h : (u == x) = true) :
    (addNew known x).contains u = true := by
  unfold addNew
  split
  · next hknown =>
      rw [List.contains_iff_exists_mem_beq] at hknown ⊢
      obtain ⟨y, hy, hxy⟩ := hknown
      exact ⟨y, hy, htrans u x y h hxy⟩
  · rw [List.contains_append]
    simp [h]

theorem contains_foldl_addNew_of_mem
    (known : List α) (hx : x ∈ xs) (h : (u == x) = true) :
    (xs.foldl addNew known).contains u = true := by
  induction xs generalizing known with
  | nil => cases hx
  | cons y xs ih =>
      rcases List.mem_cons.mp hx with rfl | hx
      · exact contains_foldl_addNew xs (contains_addNew_of_beq htrans known h)
      · exact ih (addNew known y) hx

/-- Adding one more after others is adding the others and that one. -/
theorem addNew_foldl_addNew
    (hf : ∀ x y, (x == y) = true → (f x == f y) = true) (known xs : List α) (u : α) :
    addNew ((xs.map f).foldl addNew known) (f u) =
      ((addNew xs u).map f).foldl addNew known := by
  by_cases hthere : xs.contains u = true
  · have hkept : addNew xs u = xs := if_pos hthere
    obtain ⟨x, hx, hux⟩ := List.contains_iff_exists_mem_beq.mp hthere
    have hfound := contains_foldl_addNew_of_mem htrans known (List.mem_map_of_mem hx) (hf u x hux)
    rw [hkept, addNew, if_pos hfound]
  · have hadded : addNew xs u = xs ++ [u] := if_neg hthere
    rw [hadded, List.map_append, List.foldl_append]
    rfl

end AddNew

theorem Use.beq_trans
    {u v w : Use Value} (h : (u == v) = true) (h' : (v == w) = true) :
    (u == w) = true := by
  rw [Use.beq_iff] at h h' ⊢
  refine ⟨Value.same_trans h.1 h'.1, ?_, h.2.2.trans h'.2.2⟩
  have htype := h.2.1
  have htype' := h'.2.1
  match u.type, v.type, w.type, htype, htype' with
  | none, none, none, _, _ => rfl
  | some t, some t', some t'', htype, htype' =>
      exact Value.same_trans htype htype'

theorem Use.within_beq
    (outer : Surrounding) (u v : Use Value) (h : (u == v) = true) :
    (u.within outer == v.within outer) = true := by
  rw [Use.beq_iff] at h ⊢
  exact ⟨h.1, h.2.1, congrArg outer.within h.2.2⟩

end Inventory

namespace Survey

/-- A survey that went on after another: it has what that one has, and stands in its body. -/
def after (before s : Survey Value) : Survey Value where
  inventory := before.inventory.join (s.inventory.within before.surrounding)
  surrounding := before.surrounding.within s.surrounding
  guard := s.guard

/-- A step of a survey that went on after another. -/
def Step.after (before : Survey Value) (step : Step Value Fault) : Step Value Fault :=
  ⟨before.after step.survey, step.outcome⟩

/-- Going on with nothing found yet. -/
theorem after_fresh
    {before : Survey Value} {limit : Int} (h : before.guard = { limit := limit }) :
    before.after (fresh limit) = before := by
  obtain ⟨⟨uses, choices, tags, hasReferences⟩, surrounding, guard⟩ := before
  cases h
  simp [after, fresh, Inventory.join, Inventory.within, Surrounding.within]

/-- A note that a survey takes on its way, whatever it found before. -/
structure Note (note : Survey Value → Survey Value) : Prop where
  after_eq : ∀ before s : Survey Value, note (before.after s) = before.after (note s)
  guard_eq : ∀ s, (note s).guard = s.guard
  surrounding_eq : ∀ s, (note s).surrounding = s.surrounding

/-- A part of a walk that goes on in the same way whatever was found before. It comes back to
the guard that it had, and to its surrounding unless it fails. If it fails because a body lies
too deep, it is in such a body. -/
structure Steady (walk : Survey Value → Step Value Fault) : Prop where
  after_eq : ∀ before s : Survey Value, walk (before.after s) = (walk s).after before
  guard_eq : ∀ s, (walk s).survey.guard = s.guard
  surrounding_eq : ∀ s, (walk s).outcome = .ok () → (walk s).survey.surrounding = s.surrounding
  tooDeep_ne : ∀ s, TooDeep (walk s).outcome → (walk s).survey.surrounding ≠ .message

theorem addUse_note
    (name : Value) (type : Option Value) :
    Note fun s => s.addUse name type where
  after_eq before s := by
    have huses := Inventory.addNew_foldl_addNew (fun _ _ _ => Inventory.Use.beq_trans)
      (Inventory.Use.within_beq before.surrounding) before.inventory.uses s.inventory.uses
      ⟨name, type, s.surrounding⟩
    simp only [addUse, after, Inventory.join, Inventory.within, ← huses]
    rfl
  guard_eq _ := rfl
  surrounding_eq _ := rfl

theorem addChoice_note
    (name type : Value) (selectors : List Value) :
    Note fun s => s.addChoice name type selectors where
  after_eq before s := by
    simp [addChoice, after, Inventory.join, Inventory.within]
  guard_eq _ := rfl
  surrounding_eq _ := rfl

theorem addTag_note
    (name : Value) :
    Note fun s => s.addTag name where
  after_eq before s := by
    have htags := Inventory.addNew_foldl_addNew (f := id) (fun _ _ _ => Value.same_trans)
      (fun _ _ h => h) before.inventory.tags s.inventory.tags name
    rw [List.map_id, List.map_id] at htags
    simp only [addTag, after, Inventory.join, Inventory.within, ← htags]
    rfl
  guard_eq _ := rfl
  surrounding_eq _ := rfl

theorem markReference_note :
    Note markReference where
  after_eq before s := by
    simp [markReference, after, Inventory.join, Inventory.within]
  guard_eq _ := rfl
  surrounding_eq _ := rfl

section Steady

variable {note : Survey Value → Survey Value} {walk next : Survey Value → Step Value Fault}

theorem Note.steady
    (h : Note note) :
    Steady fun s => (note s).done where
  after_eq before s := congrArg done (h.after_eq before s)
  guard_eq := h.guard_eq
  surrounding_eq s _ := h.surrounding_eq s
  tooDeep_ne s hdeep := by
    obtain ⟨fault, hfault, _⟩ := hdeep
    cases hfault

theorem Steady.comp
    (hwalk : Steady walk) (hnote : Note note) :
    Steady fun s => walk (note s) where
  after_eq before s := by
    rw [hnote.after_eq, hwalk.after_eq]
  guard_eq s := (hwalk.guard_eq _).trans (hnote.guard_eq s)
  surrounding_eq s h := (hwalk.surrounding_eq _ h).trans (hnote.surrounding_eq s)
  tooDeep_ne s := hwalk.tooDeep_ne _

theorem done_steady :
    Steady done where
  after_eq _ _ := rfl
  guard_eq _ := rfl
  surrounding_eq _ _ := rfl
  tooDeep_ne s hdeep := by
    obtain ⟨fault, hfault, _⟩ := hdeep
    cases hfault

/-- A part that nothing can go through. -/
theorem fail_steady
    {fault : Fault} (h : ¬ fault.IsTooDeep) :
    Steady fun s => ⟨s, .error fault⟩ where
  after_eq _ _ := rfl
  guard_eq _ := rfl
  surrounding_eq _ hok := by cases hok
  tooDeep_ne s hdeep := by
    obtain ⟨_, ⟨⟩, htooDeep⟩ := hdeep
    exact absurd htooDeep h

/-- What is said of a value that is no node has nothing to do with depth. -/
theorem foreign_ne_tooDeep
    (shown : Option String) :
    ¬ (shown.elim (.invalidValue overlongMessage) .unreachable : Fault).IsTooDeep := by
  cases shown <;> simp [Fault.IsTooDeep]

theorem useValue_steady
    (name type : Value) :
    Steady fun s => s.useValue name type := by
  unfold useValue
  cases name.unhashable? <|> type.unhashable? with
  | none => exact (addUse_note name (optional? type)).steady
  | some bad => exact fail_steady (by simp [Fault.IsTooDeep])

theorem tagValue_steady
    (name : Value) :
    Steady fun s => s.tagValue name := by
  unfold tagValue
  cases name.unhashable? with
  | none => exact (addTag_note name).steady
  | some bad => exact fail_steady (by simp [Fault.IsTooDeep])

/-- One part after another. -/
theorem Steady.andThen
    (hwalk : Steady walk) (hnext : Steady next) :
    Steady fun s => (walk s).andThen next where
  after_eq before s := by
    rw [hwalk.after_eq]
    unfold Step.andThen
    cases houtcome : (walk s).outcome with
    | ok u => simp [Step.after, houtcome, hnext.after_eq]
    | error fault => simp [Step.after, houtcome]
  guard_eq s := by
    unfold Step.andThen
    cases houtcome : (walk s).outcome with
    | ok u => exact (hnext.guard_eq _).trans (hwalk.guard_eq s)
    | error fault => exact hwalk.guard_eq s
  surrounding_eq s := by
    unfold Step.andThen
    cases houtcome : (walk s).outcome with
    | ok u =>
        intro h
        exact (hnext.surrounding_eq _ h).trans (hwalk.surrounding_eq s houtcome)
    | error fault =>
        intro h
        cases houtcome.symm.trans h
  tooDeep_ne s := by
    unfold Step.andThen
    cases houtcome : (walk s).outcome with
    | ok u => exact hnext.tooDeep_ne _
    | error fault => exact hwalk.tooDeep_ne s

theorem leave_of_enter
    {g inner : Guard} (h : g.enter = .ok inner) :
    inner.leave = g := by
  unfold Guard.enter at h
  split at h
  · cases h
  · cases h
    simp [Guard.leave]

/-- A body one level deeper. -/
theorem Steady.nested
    {surrounding : Surrounding} (hne : surrounding ≠ .message) (hwalk : Steady walk) :
    Steady fun s => s.nested surrounding tooDeep walk where
  after_eq before s := by
    have hguard : (before.after s).guard = s.guard := rfl
    unfold Survey.nested
    rw [hguard]
    cases henter : s.guard.enter with
    | error full => simp [Step.after, after, Surrounding.within_of_ne _ hne]
    | ok inner =>
        have hstart : { before.after s with surrounding := surrounding, guard := inner } =
            before.after { s with surrounding := surrounding, guard := inner } := by
          simp [after, Surrounding.within_of_ne _ hne]
        simp only [hstart, hwalk.after_eq]
        cases houtcome : (walk { s with surrounding := surrounding, guard := inner }).outcome with
        | ok u => simp [Step.after, houtcome, after]
        | error fault => simp [Step.after, houtcome, after]
  guard_eq s := by
    unfold Survey.nested
    cases henter : s.guard.enter with
    | error full => rfl
    | ok inner =>
        have hguard := hwalk.guard_eq { s with surrounding := surrounding, guard := inner }
        have hleave := leave_of_enter henter
        dsimp only at hguard ⊢
        cases houtcome : (walk { s with surrounding := surrounding, guard := inner }).outcome with
        | ok u => simp [hguard, hleave]
        | error fault => simp [hguard, hleave]
  surrounding_eq s := by
    unfold Survey.nested
    cases henter : s.guard.enter with
    | error full =>
        intro h
        cases h
    | ok inner =>
        dsimp only
        cases houtcome : (walk { s with surrounding := surrounding, guard := inner }).outcome with
        | ok u => simp
        | error fault => simp
  tooDeep_ne s := by
    unfold Survey.nested
    cases henter : s.guard.enter with
    | error full => exact fun _ => hne
    | ok inner =>
        have hinside := hwalk.tooDeep_ne { s with surrounding := surrounding, guard := inner }
        dsimp only
        cases houtcome : (walk { s with surrounding := surrounding, guard := inner }).outcome with
        | ok u =>
            rintro ⟨fault, hfault, _⟩
            cases hfault
        | error fault =>
            rw [houtcome] at hinside
            exact hinside

end Steady

mutual

theorem visitValue_steady
    (v : Value) :
    Steady fun s => visitValue s v := by
  match v with
  | .str _ => exact done_steady
  | .placeholder id type format none => exact useValue_steady id type
  | .placeholder id type format (some entries) =>
      have hentries := (visitEntries_steady entries).comp
        (addChoice_note id (if type.isVoid then .str "" else type) (entries.map (·.1)))
      exact (useValue_steady id type).andThen hentries
  | .reference id => exact (useValue_steady id (.str referenceType)).comp markReference_note
  | .tag name children =>
      have hchildren : Steady fun next =>
          if children.isVoid then
            next.done
          else
            next.nested .tag tooDeep fun inner => visitBody inner children := by
        cases children.isVoid with
        | true => exact done_steady
        | false => exact (visitBody_steady children).nested (by simp)
      exact (tagValue_steady name).andThen hchildren
  | .null | .bool _ | .int _ | .float _ | .bytes _ | .list _ | .tuple _ | .dict _ =>
      exact fail_steady (foreign_ne_tooDeep _)

/-- The walk over a body is steady. -/
theorem visitBody_steady
    (v : Value) :
    Steady fun s => visitBody s v := by
  match v with
  | .list items => exact visitItems_steady items
  | .tuple items => exact visitItems_steady items
  | .dict entries => exact visitKeys_steady entries
  | .str _ => exact done_steady
  | .bytes [] => exact done_steady
  | .bytes (b :: _) => exact fail_steady (by simp [Fault.IsTooDeep])
  | .null | .bool _ | .int _ | .float _ | .placeholder .. | .reference _ | .tag _ _ =>
      exact fail_steady (by simp [Fault.IsTooDeep])

theorem visitItems_steady
    (items : List Value) :
    Steady fun s => visitItems s items := by
  match items with
  | [] => exact done_steady
  | v :: rest => exact (visitValue_steady v).andThen (visitItems_steady rest)

theorem visitKeys_steady
    (entries : List (Value × Value)) :
    Steady fun s => visitKeys s entries := by
  match entries with
  | [] => exact done_steady
  | (key, _) :: rest => exact (visitValue_steady key).andThen (visitKeys_steady rest)

theorem visitEntries_steady
    (entries : List (Value × Value)) :
    Steady fun s => visitEntries s entries := by
  match entries with
  | [] => exact done_steady
  | (_, body) :: rest =>
      have hbody : Steady fun s => s.nested .submessage tooDeep fun inner => visitBody inner body :=
        (visitBody_steady body).nested (by simp)
      exact hbody.andThen (visitEntries_steady rest)

end

/-- The survey of one tree alone. -/
def alone (limit : Int) (v : Value) : Step Value Fault :=
  visitBody (fresh limit) v

/-- What several steps leave of a survey that started like this. -/
def left (start : Survey Value) (steps : List (Step Value Fault)) : Survey Value :=
  steps.getLast?.elim start (·.survey)

theorem left_cons
    (start : Survey Value) (step : Step Value Fault) (steps : List (Step Value Fault)) :
    left start (step :: steps) = left step.survey steps := by
  unfold left
  rw [List.getLast?_cons]
  cases steps.getLast? with
  | none => rfl
  | some last => rfl

theorem visitEachValue_concat
    (s : Survey Value) (vs : List Value) (v : Value) :
    s.visitEachValue (vs ++ [v]) =
      s.visitEachValue vs ++ [visitBody (left s (s.visitEachValue vs)) v] := by
  induction vs generalizing s with
  | nil => rfl
  | cons w vs ih =>
      rw [List.cons_append, visitEachValue, visitEachValue, ih, left_cons, List.cons_append]

/-- A survey is back at its guard after every tree. -/
theorem guard_left
    (s : Survey Value) (vs : List Value) :
    (left s (s.visitEachValue vs)).guard = s.guard := by
  induction vs generalizing s with
  | nil => rfl
  | cons w vs ih => rw [visitEachValue, left_cons, ih, (visitBody_steady w).guard_eq]

/-- A tree is surveyed after others as it is surveyed alone. -/
theorem visitBody_eq_after
    {before : Survey Value} {limit : Int} (h : before.guard = { limit := limit }) (v : Value) :
    visitBody before v = (alone limit v).after before := by
  rw [alone, ← (visitBody_steady v).after_eq, after_fresh h]

/-- A survey is back in the message itself unless some tree leaves it in a nested body. -/
theorem surrounding_left_iff
    {s : Survey Value} {limit : Int} (h : s.guard = { limit := limit }) (vs : List Value) :
    (left s (s.visitEachValue vs)).surrounding = .message ↔
      s.surrounding = .message ∧
        ∀ w ∈ vs, (alone limit w).survey.surrounding = .message := by
  induction vs generalizing s with
  | nil => simp [left, visitEachValue]
  | cons w vs ih =>
      have hguard := (visitBody_steady w).guard_eq s
      have hsurrounding : (visitBody s w).survey.surrounding =
          s.surrounding.within (alone limit w).survey.surrounding := by
        rw [visitBody_eq_after h]
        rfl
      rw [visitEachValue, left_cons, ih (hguard.trans h), hsurrounding,
        Surrounding.within_eq_message_iff, List.forall_mem_cons, and_assoc]

theorem ofAnythingOnStack_outcome
    (frames requested : Int) (vs : List Value) :
    (ofAnythingOnStack frames requested vs).outcome =
      .ok ((fresh (clampDepth frames standardReserve requested)).visitEachValue vs) := by
  have hclamp := clampDepthLogged_outcome frames standardReserve requested
  simp only [ofAnythingOnStack, bind, Logged.andThen, hclamp, ofAnything_eq]
  rfl

/-- A survey that goes through a tree after others has entered no level afterwards, and ends as
the survey of that tree alone. It adds what that one finds, and notes as standing in the body it
was left in what stands in the tree itself. So it adds the same if it was left in the message
itself, which it was exactly if none of the earlier trees alone leaves a survey in a nested
body. A tree that is gone through does not, and one that is too deep always does. -/
theorem ofAnythingOnStack_concat
    (frames requested : Int) (earlier : List Value) (v : Value) :
    let limit := clampDepth frames standardReserve requested
    ∃ (steps : List (Step Value Fault)) (step : Step Value Fault),
      (ofAnythingOnStack frames requested earlier).outcome = .ok steps ∧
      (ofAnythingOnStack frames requested (earlier ++ [v])).outcome = .ok (steps ++ [step]) ∧
      (ofAnythingOnStack frames requested [v]).outcome = .ok [alone limit v] ∧
      step.survey.guard = { limit := limit, depth := 0 } ∧
      step.outcome = (alone limit v).outcome ∧
      step.survey.surrounding =
        (left (fresh limit) steps).surrounding.within (alone limit v).survey.surrounding ∧
      step.survey.inventory = (left (fresh limit) steps).inventory.join
        ((alone limit v).survey.inventory.within (left (fresh limit) steps).surrounding) ∧
      ((left (fresh limit) steps).surrounding = .message →
        step.survey.inventory =
          (left (fresh limit) steps).inventory.join (alone limit v).survey.inventory) ∧
      ((left (fresh limit) steps).surrounding = .message ↔
        ∀ w ∈ earlier, (alone limit w).survey.surrounding = .message) ∧
      ((alone limit v).outcome = .ok () → (alone limit v).survey.surrounding = .message) ∧
      (TooDeep (alone limit v).outcome → (alone limit v).survey.surrounding ≠ .message) := by
  intro limit
  have hguard : (left (fresh limit) ((fresh limit).visitEachValue earlier)).guard =
      { limit := limit } :=
    guard_left (fresh limit) earlier
  have hstep := visitBody_eq_after hguard v
  have hsteady := visitBody_steady v
  refine ⟨(fresh limit).visitEachValue earlier,
    visitBody (left (fresh limit) ((fresh limit).visitEachValue earlier)) v,
    ofAnythingOnStack_outcome frames requested earlier, ?_,
    ofAnythingOnStack_outcome frames requested [v], (hsteady.guard_eq _).trans hguard,
    ?_, ?_, ?_, ?_, ?_, hsteady.surrounding_eq _, hsteady.tooDeep_ne _⟩
  · rw [ofAnythingOnStack_outcome, visitEachValue_concat]
  · rw [hstep]
    rfl
  · rw [hstep]
    rfl
  · rw [hstep]
    rfl
  · intro hmessage
    rw [hstep, Step.after, after, hmessage, Inventory.within_message]
  · rw [surrounding_left_iff rfl]
    exact and_iff_right rfl

/-- Not every survey is in the message itself after each tree and adds what a fresh one finds: one
that gave up in a tag notes a placeholder of the next message as standing in a tag. -/
theorem not_surrounding_kept :
    ¬ ∀ (requested : Int) (earlier : List Value) (v : Value) (steps : List (Step Value Fault))
        (step once : Step Value Fault),
      (ofAnythingOnStack 1000 requested earlier).outcome = .ok steps →
        (ofAnythingOnStack 1000 requested (earlier ++ [v])).outcome = .ok (steps ++ [step]) →
          (ofAnythingOnStack 1000 requested [v]).outcome = .ok [once] →
            step.survey.guard.depth = 0 ∧ step.survey.surrounding = .message ∧
              (step.outcome = .ok () →
                step.survey.inventory = (left (fresh requested) steps).inventory.join
                  once.survey.inventory) := by
  intro hall
  obtain ⟨_, hsurrounding, _⟩ := hall 1
    [.list [.tag (.str "b") (.list [.tag (.str "c") (.list [.str "x"])])]]
    (.list [.placeholder (.str "a") .null .null none]) _ _ _
    (ofAnythingOnStack_outcome 1000 1 _)
    (by rw [ofAnythingOnStack_outcome, visitEachValue_concat])
    (ofAnythingOnStack_outcome 1000 1 _)
  exact absurd hsurrounding (by decide)

end Survey

end MessageFormat
