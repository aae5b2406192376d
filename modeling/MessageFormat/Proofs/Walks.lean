import MessageFormat.Loose.Inventory
import MessageFormat.Loose.Plain

/-!
# Walks within a nesting limit

Every walk over a message enters its nested bodies through a guard. What a walk answers is therefore
known from the depth of the message alone (`Guard.Bounds`): an answer if the message is within the
levels that are left and fit for the walk, and the refusal of the guard if it is deeper.

Such answers compose (`Bounds.bind`, `Bounds.enter`), with the larger of two depths side by side and
one level more for a nested body, just as the depth of a message is defined. Turning a message into
plain data and taking its inventory are such walks, and fit for all messages. Plain data counts the
content of a tag even if there is none, so its walk has levels of its own (`Message.levels`).
-/

namespace MessageFormat

/-- What a walk answers of something so deep, which may be unfit for the walk. -/
inductive Guard.Bounds {ε α : Type} (g : Guard) (refusal : Int → ε) (depth : Nat) (fit : Prop) :
    Except ε α → Prop
  | done {a : α}
      (hfit : fit)
      (hwithin : g.depth + depth ≤ g.limit) :
      Bounds g refusal depth fit (.ok a)
  | full
      (hdeep : g.limit < g.depth + depth) :
      Bounds g refusal depth fit (.error (refusal g.limit))
  | unfit {e : ε}
      (hother : ∀ limit, e ≠ refusal limit)
      (hunfit : ¬ fit) :
      Bounds g refusal depth fit (.error e)

namespace Guard

/-- The guard of a body one level deeper. -/
def inner (g : Guard) : Guard :=
  { g with depth := g.depth + 1 }

theorem enter_of_lt
    {g : Guard} (hlt : g.depth < g.limit) :
    g.enter = .ok g.inner := by
  have hfull : g.isFull = false := by
    simp [isFull, hlt]
  simp [enter, hfull, inner]

theorem enter_of_le
    {g : Guard} (hle : g.limit ≤ g.depth) :
    g.enter = .error ⟨g.limit⟩ := by
  have hfull : g.isFull = true := by
    simp [isFull, hle]
  simp [enter, hfull]

theorem inner_le
    {g : Guard} (hlt : g.depth < g.limit) :
    g.inner.depth ≤ g.inner.limit := by
  simp only [inner]
  omega

@[simp] theorem leave_inner
    (g : Guard) :
    g.inner.leave = g := by
  simp [leave, inner]

section Bounds

variable {ε α β : Type} {g : Guard} {refusal : Int → ε} {depth depth' : Nat} {fit fit' : Prop}
  {x : Except ε α}

theorem Bounds.eq_ok
    (h : g.Bounds refusal depth fit x) (hfit : fit) (hwithin : g.depth + depth ≤ g.limit) :
    ∃ a, x = .ok a := by
  cases h with
  | @done a _ _ => exact ⟨a, rfl⟩
  | full hdeep => omega
  | unfit _ hunfit => exact absurd hfit hunfit

theorem Bounds.deep_of_eq
    (h : g.Bounds refusal depth fit x) {limit : Int} (hx : x = .error (refusal limit)) :
    g.limit < g.depth + depth := by
  cases h with
  | done _ _ => cases hx
  | full hdeep => exact hdeep
  | unfit hother _ =>
      cases hx
      exact absurd rfl (hother limit)

theorem Bounds.eq_refusal_iff
    (h : g.Bounds refusal depth fit x) (hfit : fit) :
    x = .error (refusal g.limit) ↔ g.limit < g.depth + depth := by
  constructor
  · exact h.deep_of_eq
  · intro hdeep
    cases h with
    | done _ hwithin => omega
    | full _ => rfl
    | unfit _ hunfit => exact absurd hfit hunfit

theorem Bounds.fit_of_ok
    {a : α} (h : g.Bounds refusal depth fit (Except.ok a)) :
    fit := by
  cases h with
  | done hfit _ => exact hfit

/-- A walk gives an answer exactly of what is fit and within its limit. -/
theorem Bounds.exists_ok_iff
    (h : g.Bounds refusal depth fit x) :
    (∃ a, x = .ok a) ↔ fit ∧ g.depth + depth ≤ g.limit := by
  constructor
  · rintro ⟨a, rfl⟩
    cases h with
    | done hfit hwithin => exact ⟨hfit, hwithin⟩
  · rintro ⟨hfit, hwithin⟩
    exact h.eq_ok hfit hwithin

/-- The same bounds, said otherwise. -/
theorem Bounds.congr
    (h : g.Bounds refusal depth fit x) (hdepth : depth = depth') (hfit : fit ↔ fit') :
    g.Bounds refusal depth' fit' x := by
  subst hdepth
  cases h with
  | done hdone hwithin => exact .done (hfit.mp hdone) hwithin
  | full hdeep => exact .full hdeep
  | unfit hother hunfit => exact .unfit hother (mt hfit.mpr hunfit)

/-- One part after another. -/
theorem Bounds.bind
    {f : α → Except ε β}
    (hx : g.Bounds refusal depth fit x) (hf : ∀ a, g.Bounds refusal depth' fit' (f a)) :
    g.Bounds refusal (max depth depth') (fit ∧ fit') (x >>= f) := by
  cases hx with
  | @done a hfit hwithin =>
      change g.Bounds refusal (max depth depth') (fit ∧ fit') (f a)
      have hnext := hf a
      generalize f a = y at hnext ⊢
      cases hnext with
      | done hfit' hwithin' => exact .done ⟨hfit, hfit'⟩ (by omega)
      | full hdeep => exact .full (by omega)
      | unfit hother hunfit => exact .unfit hother (fun hfits => hunfit hfits.2)
  | full hdeep => exact .full (by omega)
  | unfit hother hunfit => exact .unfit hother (fun hfits => hunfit hfits.1)

theorem Bounds.map
    (hx : g.Bounds refusal depth fit x) (f : α → β) :
    g.Bounds refusal depth fit (x.map f) := by
  cases hx with
  | done hfit hwithin => exact .done hfit hwithin
  | full hdeep => exact .full hdeep
  | unfit hother hunfit => exact .unfit hother hunfit

/-- The last part of several. -/
theorem Bounds.andReturn
    (hx : g.Bounds refusal depth fit x) (f : α → β) :
    g.Bounds refusal depth fit (x >>= fun a => pure (f a)) := by
  have hmap := hx.map f
  cases x with
  | ok a => exact hmap
  | error e => exact hmap

/-- A part that nests nothing and that the walk is fit for. -/
theorem Bounds.leaf
    {a : α} (hg : g.depth ≤ g.limit) (hfit : fit) :
    g.Bounds refusal 0 fit (Except.ok a) :=
  .done hfit (by simpa using hg)

/-- What is bounded one level deeper is bounded here. -/
theorem Bounds.of_inner
    (h : g.inner.Bounds refusal depth fit x) :
    g.Bounds refusal (1 + depth) fit x := by
  have hdepth : g.inner.depth = g.depth + 1 := rfl
  have hlimit : g.inner.limit = g.limit := rfl
  cases h with
  | done hfit hwithin => exact .done hfit (by omega)
  | full hdeep => exact .full (by omega)
  | unfit hother hunfit => exact .unfit hother hunfit

/-- A body one level deeper. -/
theorem Bounds.enter
    {wrap : Full → ε} {f : Guard → Except ε α}
    (hwrap : wrap ⟨g.limit⟩ = refusal g.limit)
    (hf : g.inner.depth ≤ g.inner.limit → g.inner.Bounds refusal depth fit (f g.inner)) :
    g.Bounds refusal (1 + depth) fit (g.enter.mapError wrap >>= f) := by
  by_cases hlt : g.depth < g.limit
  · rw [enter_of_lt hlt]
    exact (hf (inner_le hlt)).of_inner
  · rw [enter_of_le (by omega), mapError_error, hwrap]
    exact .full (by omega)

end Bounds

end Guard

mutual

/-- No tag of a node has a list of content that is empty. -/
def Node.Filled : Node → Prop
  | .text _ => True
  | .placeholder _ _ _ none => True
  | .placeholder _ _ _ (some subs) => Submessages.Filled subs
  | .reference _ => True
  | .tag _ none => True
  | .tag _ (some children) => children ≠ [] ∧ Message.Filled children

/-- No tag in the nodes of a body has a list of content that is empty. -/
def Message.Filled : List Node → Prop
  | [] => True
  | node :: rest => node.Filled ∧ Message.Filled rest

/-- No tag in sub-messages has a list of content that is empty. -/
def Submessages.Filled : List (String × List Node) → Prop
  | [] => True
  | (_, body) :: rest => Message.Filled body ∧ Submessages.Filled rest

end

mutual

/-- The number of bodies around the most deeply nested part of a node, where the content of a tag
counts even if it is empty. -/
def Node.levels : Node → Nat
  | .text _ => 0
  | .placeholder _ _ _ none => 0
  | .placeholder _ _ _ (some subs) => Submessages.levels subs
  | .reference _ => 0
  | .tag _ none => 0
  | .tag _ (some children) => 1 + Message.levels children

/-- The levels of the node with the most. -/
def Message.levels : List Node → Nat
  | [] => 0
  | node :: rest => max node.levels (Message.levels rest)

/-- One more than the levels of the sub-message with the most. -/
def Submessages.levels : List (String × List Node) → Nat
  | [] => 0
  | (_, body) :: rest => max (1 + Message.levels body) (Submessages.levels rest)

end

mutual

theorem Node.Filled.levels_eq
    (node : Node) (h : node.Filled) :
    node.levels = node.depth := by
  match node with
  | .text _ => rfl
  | .placeholder _ _ _ none => rfl
  | .placeholder _ _ _ (some subs) => exact Submessages.Filled.levels_eq subs h
  | .reference _ => rfl
  | .tag _ none => rfl
  | .tag _ (some []) => exact absurd rfl h.1
  | .tag _ (some (child :: rest)) =>
      exact congrArg (1 + ·) (Message.Filled.levels_eq (child :: rest) h.2)

theorem Message.Filled.levels_eq
    (m : List Node) (h : Message.Filled m) :
    Message.levels m = Message.depth m := by
  match m with
  | [] => rfl
  | node :: rest =>
      change max node.levels (Message.levels rest) = max node.depth (Message.depth rest)
      rw [Node.Filled.levels_eq node h.1, Message.Filled.levels_eq rest h.2]

theorem Submessages.Filled.levels_eq
    (subs : List (String × List Node)) (h : Submessages.Filled subs) :
    Submessages.levels subs = Submessages.depth subs := by
  match subs with
  | [] => rfl
  | (_, body) :: rest =>
      change max (1 + Message.levels body) (Submessages.levels rest) =
        max (1 + Message.depth body) (Submessages.depth rest)
      rw [Message.Filled.levels_eq body h.1, Submessages.Filled.levels_eq rest h.2]

end

namespace Plain

mutual

theorem ofNode_bounds
    (g : Guard) (hg : g.depth ≤ g.limit) (node : Node) :
    g.Bounds .tooDeep node.levels True (ofNode g node) := by
  match node with
  | .text s => exact .leaf hg trivial
  | .placeholder id type format none => exact .leaf hg trivial
  | .placeholder id type format (some subs) =>
      have hsubs := ofSubmessages_bounds g hg subs
      rw [ofNode]
      exact hsubs.andReturn _
  | .reference id => exact .leaf hg trivial
  | .tag name none => exact .leaf hg trivial
  | .tag name (some children) =>
      rw [ofNode]
      refine Guard.Bounds.enter rfl ?_
      intro hinner
      exact (ofNodes_bounds g.inner hinner children).andReturn _

theorem ofNodes_bounds
    (g : Guard) (hg : g.depth ≤ g.limit) (m : List Node) :
    g.Bounds .tooDeep (Message.levels m) True (ofNodes g m) := by
  match m with
  | [] => exact .leaf hg trivial
  | node :: rest =>
      have hnode := ofNode_bounds g hg node
      have hrest := ofNodes_bounds g hg rest
      rw [ofNodes]
      exact (hnode.bind fun v => hrest.andReturn _).congr rfl (and_self_iff)

theorem ofSubmessages_bounds
    (g : Guard) (hg : g.depth ≤ g.limit) (subs : List (String × List Node)) :
    g.Bounds .tooDeep (Submessages.levels subs) True (ofSubmessages g subs) := by
  match subs with
  | [] => exact .leaf hg trivial
  | (selector, body) :: rest =>
      have hbody : g.Bounds .tooDeep (1 + Message.levels body) True
          (g.enterPlain >>= fun inner => ofNodes inner body) :=
        Guard.Bounds.enter rfl fun hinner => ofNodes_bounds g.inner hinner body
      have hrest := ofSubmessages_bounds g hg rest
      rw [ofSubmessages, ← bind_assoc]
      exact (hbody.bind fun items => hrest.andReturn _).congr rfl (and_self_iff)

end

/-- Turning a message into plain data answers by its levels. -/
theorem ofMessage_levels
    {limit : Int} (hlimit : 0 ≤ limit) (m : Message) :
    Guard.Bounds { limit := limit } .tooDeep (Message.levels m) True (ofMessage limit m) :=
  (ofNodes_bounds { limit := limit } hlimit m).map _

/-- Without such lists of content, it answers by the depth of the message. -/
theorem ofMessage_bounds
    {limit : Int} (hlimit : 0 ≤ limit) {m : Message} (hm : Message.Filled m) :
    Guard.Bounds { limit := limit } .tooDeep (Message.depth m) True
      (ofMessage limit m) :=
  (ofMessage_levels hlimit m).congr (Message.Filled.levels_eq m hm) Iff.rfl

end Plain

namespace Survey

/-- A survey with this guard goes through something so deep, and keeps the guard. -/
structure Walked {α : Type} (g : Guard) (depth : Nat) (step : Step α Guard.Full) : Prop where
  bounds : g.Bounds Guard.Full.mk depth True step.outcome
  guard_eq : step.outcome = .ok () → step.survey.guard = g

section Walked

variable {α : Type} {g : Guard} {depth depth' : Nat} {step : Step α Guard.Full}

theorem Walked.done
    {s : Survey α} (hg : g.depth ≤ g.limit) (hs : s.guard = g) :
    Walked g 0 s.done where
  bounds := .leaf hg trivial
  guard_eq _ := hs

/-- One part after another. -/
theorem Walked.andThen
    {next : Survey α → Step α Guard.Full}
    (hstep : Walked g depth step)
    (hnext : ∀ s : Survey α, s.guard = g → Walked g depth' (next s)) :
    Walked g (max depth depth') (step.andThen next) := by
  obtain ⟨hbounds, hguard⟩ := hstep
  obtain ⟨s, outcome⟩ := step
  cases outcome with
  | error full =>
      refine ⟨?_, by simp [Step.andThen]⟩
      cases hbounds with
      | full hdeep => exact .full (by omega)
      | unfit hother hunfit => exact .unfit hother hunfit
  | ok u =>
      obtain ⟨hbounds', hguard'⟩ := hnext s (hguard rfl)
      refine ⟨?_, hguard'⟩
      exact (hbounds.bind fun _ => hbounds').congr rfl and_self_iff

/-- A body one level deeper. -/
theorem Walked.nested
    (s : Survey α) (surrounding : Surrounding) {walk : Survey α → Step α Guard.Full}
    (hwalk : ∀ t : Survey α, t.guard.depth ≤ t.guard.limit → Walked t.guard depth (walk t)) :
    Walked s.guard (1 + depth) (s.nested surrounding id walk) := by
  by_cases hlt : s.guard.depth < s.guard.limit
  · have hbody := hwalk { s with surrounding := surrounding, guard := s.guard.inner }
      (Guard.inner_le hlt)
    simp only [Survey.nested, Guard.enter_of_lt hlt]
    generalize walk { s with surrounding := surrounding, guard := s.guard.inner } = step at hbody ⊢
    obtain ⟨t, outcome⟩ := step
    obtain ⟨hbounds, hguard⟩ := hbody
    cases outcome with
    | error full => exact ⟨hbounds.of_inner, by simp⟩
    | ok u =>
        have ht : t.guard = s.guard.inner := hguard rfl
        exact ⟨hbounds.of_inner, by simp [ht]⟩
  · simp only [Survey.nested, Guard.enter_of_le (Int.not_lt.mp hlt)]
    exact ⟨.full (by omega), by simp⟩

end Walked

mutual

theorem visitNode_walked
    (s : Survey String) (hs : s.guard.depth ≤ s.guard.limit) (node : Node) :
    Walked s.guard node.depth (visitNode s node) := by
  match node with
  | .text _ => exact .done hs rfl
  | .placeholder id type _ none => exact .done hs rfl
  | .placeholder id type format (some subs) =>
      rw [visitNode]
      exact visitSubmessages_walked
        ((s.addUse id type).addChoice id (type.getD "") (subs.map (·.1))) hs subs
  | .reference id => exact .done hs rfl
  | .tag name none => exact .done hs rfl
  | .tag name (some []) => exact .done hs rfl
  | .tag name (some (child :: rest)) =>
      exact Walked.nested (s.addTag name) .tag fun inner hinner =>
        visitNodes_walked inner hinner (child :: rest)

theorem visitNodes_walked
    (s : Survey String) (hs : s.guard.depth ≤ s.guard.limit) (m : List Node) :
    Walked s.guard (Message.depth m) (visitNodes s m) := by
  match m with
  | [] => exact .done hs rfl
  | node :: rest =>
      rw [visitNodes]
      refine (visitNode_walked s hs node).andThen ?_
      intro t ht
      rw [← ht] at hs ⊢
      exact visitNodes_walked t hs rest

theorem visitSubmessages_walked
    (s : Survey String) (hs : s.guard.depth ≤ s.guard.limit)
    (subs : List (String × List Node)) :
    Walked s.guard (Submessages.depth subs) (visitSubmessages s subs) := by
  match subs with
  | [] => exact .done hs rfl
  | (selector, body) :: rest =>
      have hbody := Walked.nested s .submessage fun inner hinner =>
        visitNodes_walked inner hinner body
      rw [visitSubmessages]
      refine hbody.andThen ?_
      intro t ht
      rw [← ht] at hs ⊢
      exact visitSubmessages_walked t hs rest

end

/-- Taking the inventory of a message answers by its depth. -/
theorem visit_bounds
    {limit : Int} (hlimit : 0 ≤ limit) (m : Message) :
    Guard.Bounds { limit := limit } Guard.Full.mk (Message.depth m) True
      ((fresh limit).visit m).outcome :=
  (visitNodes_walked (fresh limit) hlimit m).bounds

end Survey

end MessageFormat
