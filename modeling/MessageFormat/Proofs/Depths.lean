import MessageFormat.Proofs.Limits
import MessageFormat.Proofs.Reread
import MessageFormat.Proofs.Writable

/-!
# The depth of a message decides

Reading, writing, taking the inventory and turning into plain data each count levels in their own
way. They agree (`Message.depth_decides`): each of the walks over a message reports that it lies too
deep exactly if its depth is larger than the limit that fits the stack, and what a reader returns is
never deeper than its limit. A message that was read with the limit of the walks is therefore too
deep for none of them, and a text that was written is too deep exactly for the readers for which the
message is.
-/

namespace MessageFormat

/-- A fault reports that a body lies too deep. -/
def Fault.IsTooDeep : Fault → Prop
  | .reported report => report.kind = .depthLimit
  | _ => False

/-- A call ends with the report that a body lies too deep. -/
def TooDeep {α : Type} (outcome : Except Fault α) : Prop :=
  ∃ fault, outcome = .error fault ∧ fault.IsTooDeep

theorem mapError_eq_ok_iff
    {ε ε' α : Type} {outcome : Except ε α} {f : ε → ε'} {a : α} :
    outcome.mapError f = .ok a ↔ outcome = .ok a := by
  cases outcome with
  | error e => simp
  | ok b => simp

theorem TooDeep.map_iff
    {α β : Type} {outcome : Except Fault α} {f : α → β} :
    TooDeep (outcome.map f) ↔ TooDeep outcome := by
  cases outcome with
  | error fault => simp [TooDeep, Except.map]
  | ok a => simp [TooDeep, Except.map]

namespace Guard

variable {ε α : Type} {g : Guard} {refusal : Int → ε} {depth : Nat} {fit : Prop}
  {x : Except ε α} {toFault : ε → Fault}

/-- A walk within its limit is not too deep, whatever else it reports. -/
theorem Bounds.not_tooDeep
    (h : g.Bounds refusal depth fit x)
    (hfault : ∀ e, (toFault e).IsTooDeep → ∃ limit, e = refusal limit)
    (hwithin : g.depth + depth ≤ g.limit) :
    ¬ TooDeep (x.mapError toFault) := by
  rintro ⟨fault, hx, hdeep⟩
  cases x with
  | ok a => cases hx
  | error e =>
      cases hx
      obtain ⟨limit, rfl⟩ := hfault e hdeep
      have hexceeds := h.deep_of_eq rfl
      omega

/-- A walk that is fit is too deep exactly if it exceeds its limit. -/
theorem Bounds.tooDeep_iff
    (h : g.Bounds refusal depth fit x)
    (hfault : ∀ e, (toFault e).IsTooDeep ↔ ∃ limit, e = refusal limit)
    (hfit : fit) :
    TooDeep (x.mapError toFault) ↔ g.limit < g.depth + depth := by
  constructor
  · intro htooDeep
    by_contra hwithin
    exact h.not_tooDeep (fun e => (hfault e).mp) (by omega) htooDeep
  · intro hdeep
    rw [(h.eq_refusal_iff hfit).mpr hdeep]
    exact ⟨_, rfl, (hfault _).mpr ⟨_, rfl⟩⟩

end Guard

theorem PlainFault.isTooDeep_iff
    (e : PlainFault) :
    e.toFault.IsTooDeep ↔ ∃ limit, e = .tooDeep limit := by
  cases e <;> simp [toFault, Fault.IsTooDeep, Report.tooDeep, Report.ofDiagnostic]

theorem WriteFault.isTooDeep_iff
    (e : WriteFault) :
    e.toFault.IsTooDeep ↔ ∃ limit, e = .tooDeep limit := by
  cases e <;> simp [toFault, Fault.IsTooDeep, Report.tooDeep, Report.ofDiagnostic]

theorem Survey.isTooDeep_iff
    (full : Guard.Full) :
    (Survey.tooDeep full).IsTooDeep ↔ ∃ limit, full = ⟨limit⟩ := by
  obtain ⟨limit⟩ := full
  simp [tooDeep, Fault.IsTooDeep, Report.tooDeep, Report.ofDiagnostic]

/-- On a stack of so many frames, a message is turned into plain data within the limit that fits
the stack. -/
theorem Plain.ofAnythingOnStack_outcome
    (frames : Int) (m : Message) :
    (ofAnythingOnStack frames m.toValue).outcome =
      (ofMessage (clampDepth frames standardReserve standardDepth) m).mapError
        PlainFault.toFault := by
  have hclamp := clampDepthLogged_outcome frames standardReserve standardDepth
  simp only [ofAnythingOnStack, bind, Logged.andThen, hclamp, ofAnything,
    Value.toMessage?_toValue]
  rfl

/-- The survey of a single message. -/
theorem Survey.ofAnything_singleton
    (limit : Int) (m : Message) :
    ofAnything limit [m.toValue] = [((fresh limit).visit m).toValues] := by
  simp [ofAnything, Value.toMessage?_toValue, visitEach]

/-- The inventory of a message is taken within that limit. -/
theorem Inventory.ofAnythingOnStack_outcome
    (frames : Int) (m : Message) :
    let step := (Survey.fresh (clampDepth frames standardReserve standardDepth)).visit m
    (ofAnythingOnStack frames m.toValue).outcome =
      (step.outcome.mapError Survey.tooDeep).map fun () => step.toValues.survey.inventory := by
  have hclamp := clampDepthLogged_outcome frames standardReserve standardDepth
  have hsurvey : (Survey.ofAnythingOnStack frames standardDepth [m.toValue]).outcome =
      .ok [((Survey.fresh (clampDepth frames standardReserve standardDepth)).visit
        m).toValues] := by
    simp only [Survey.ofAnythingOnStack, bind, Logged.andThen, hclamp,
      Survey.ofAnything_singleton]
    rfl
  rw [Message.toValue] at *
  simp only [ofAnythingOnStack, bind, Logged.andThen, hsurvey]
  generalize (Survey.fresh (clampDepth frames standardReserve standardDepth)).visit m = step
  obtain ⟨survey, outcome⟩ := step
  cases outcome with
  | error full => rfl
  | ok u => rfl

mutual

theorem Node.WellFormed.filled
    {d : Dialect} {owner : Option String} (node : Node) (h : node.WellFormed d owner) :
    node.Filled := by
  match node with
  | .text s => trivial
  | .reference id => trivial
  | .placeholder id type format none => trivial
  | .placeholder id none format (some subs) =>
      obtain ⟨_, _, hsubs⟩ := h
      cases hsubs
  | .placeholder id (some type) format (some subs) =>
      obtain ⟨_, _, _, _, _, _, hsubs⟩ := h
      exact Submessages.WellFormed.filled subs hsubs
  | .tag name none => trivial
  | .tag name (some children) =>
      obtain ⟨_, _, hne, hchildren⟩ := h
      exact ⟨hne, Message.WellFormed.filled children hchildren⟩

theorem Message.WellFormed.filled
    {d : Dialect} {owner : Option String} (m : List Node) (h : Message.WellFormed d owner m) :
    Message.Filled m := by
  match m with
  | [] => trivial
  | node :: rest =>
      exact ⟨Node.WellFormed.filled node h.1, Message.WellFormed.filled rest h.2.2⟩

theorem Submessages.WellFormed.filled
    {d : Dialect} {owner : Option String} (subs : List (String × List Node))
    (h : Submessages.WellFormed d owner subs) :
    Submessages.Filled subs := by
  match subs with
  | [] => trivial
  | (selector, body) :: rest =>
      exact ⟨Message.WellFormed.filled body h.2.1, Submessages.WellFormed.filled rest h.2.2⟩

end

/-- The limit that fits a stack is not negative. -/
theorem clampDepth_nonneg
    (frames : Int) :
    0 ≤ clampDepth frames standardReserve standardDepth := by
  have hpos : 1 ≤ clampDepth frames standardReserve standardDepth := clampDepth_pos (by decide)
  omega

theorem Plain.tooDeep_iff
    (frames : Int) {m : Message} (hm : Message.Filled m) :
    TooDeep (Plain.ofAnythingOnStack frames m.toValue).outcome ↔
      clampDepth frames standardReserve standardDepth < Message.depth m := by
  have hbounds := Plain.ofMessage_bounds (clampDepth_nonneg frames) hm
  rw [Plain.ofAnythingOnStack_outcome]
  simpa using hbounds.tooDeep_iff PlainFault.isTooDeep_iff trivial

theorem Inventory.tooDeep_iff
    (frames : Int) (m : Message) :
    TooDeep (Inventory.ofAnythingOnStack frames m.toValue).outcome ↔
      clampDepth frames standardReserve standardDepth < Message.depth m := by
  have hbounds := Survey.visit_bounds (clampDepth_nonneg frames) m
  rw [Inventory.ofAnythingOnStack_outcome, TooDeep.map_iff]
  simpa using hbounds.tooDeep_iff Survey.isTooDeep_iff trivial

theorem Dialect.tooDeep_iff
    (d : Dialect) (frames : Int) {m : Message} (hm : Message.Writable d none m) :
    TooDeep (d.serializeOnStack frames m.toValue).outcome ↔
      clampDepth frames standardReserve standardDepth < Message.depth m := by
  have hbounds := d.serialize_bounds (clampDepth_nonneg frames) m
  rw [d.serializeOnStack_outcome]
  simpa using hbounds.tooDeep_iff WriteFault.isTooDeep_iff hm

/-- A message within the limit is not too deep to be written, even if it is not writable. -/
theorem Dialect.not_tooDeep
    (d : Dialect) {frames : Int} {m : Message}
    (hdepth : Message.depth m ≤ clampDepth frames standardReserve standardDepth) :
    ¬ TooDeep (d.serializeOnStack frames m.toValue).outcome := by
  have hbounds := d.serialize_bounds (clampDepth_nonneg frames) m
  rw [d.serializeOnStack_outcome]
  exact hbounds.not_tooDeep (fun e => (WriteFault.isTooDeep_iff e).mp) (by simpa using hdepth)

namespace Reader

/-- A text that gives a message within one limit gives it within another one, or is too deep. -/
theorem tooDeep_of_lt
    {r : Reader} {v : Value} {m : Message} {limit : Int}
    (h : (r.readValue v).outcome = .ok m) (hlimit : 0 ≤ limit) (hdeep : limit < Message.depth m) :
    TooDeep ({ r with depthLimit := limit }.readValue v).outcome := by
  have hdepth := depth_le_of_readValue h
  have hle : limit ≤ r.depthLimit := by
    omega
  rcases ({ r with depthLimit := limit } : Reader).read_within v.display.toList hle with
    hsame | ⟨place, hplace⟩
  · exfalso
    have hread : ({ r with depthLimit := limit }.readValue v).outcome = .ok m := by
      rw [← h]
      simp only [readValue, hsame]
    have hwithin := depth_le_of_readValue hread
    dsimp only at hwithin
    omega
  · refine ⟨.reported (Report.tooDeep limit), ?_, rfl⟩
    simp [readValue, hplace, ReadFault.toFault, Stretch.account]

/-- A text that was written for a message and gives it back is read within every limit that the
message keeps to. -/
theorem readValue_of_le
    {r : Reader} (hdialect : r.dialect.Ordinary) (hnonneg : 0 ≤ r.depthLimit)
    {m : Message} {text : String} {limit : Int}
    (htext : r.dialect.serialize r.depthLimit m = .ok text)
    (h : (r.readValue (.str text)).outcome = .ok m) (hle : Message.depth m ≤ limit) :
    ({ r with depthLimit := limit }.readValue (.str text)).outcome = .ok m := by
  obtain ⟨hsize, closed, p, hreads⟩ := readValue_eq_ok_iff.mp h
  have hwell : Message.WellFormed r.dialect none m := hreads.wellFormed
  have hdepth : Message.depth m ≤ r.depthLimit := by
    have hread := depth_le_of_readValue h
    omega
  obtain rfl : String.ofList (Message.spell r.dialect none m []) = text :=
    Except.ok.inj ((Dialect.serialize_eq hwell hdepth).symm.trans htext)
  have hclear : Message.Unmistakable r.dialect m := by
    rw [readValue_of_not_refuses hsize] at h
    exact (readValue_spell_iff (r := { r with maxSize := 0 }) rfl hdialect hwell hdepth).mp h
  have hsize' : ¬ ({ r with depthLimit := limit } : Reader).Refuses
      (Value.display (.str (String.ofList (Message.spell r.dialect none m [])))).toList := hsize
  rw [readValue_of_not_refuses hsize']
  exact (readValue_spell_iff (r := { r with maxSize := 0, depthLimit := limit }) rfl hdialect
    hwell hle).mpr hclear

/-- Such a text is too deep exactly within the limits that the message exceeds. -/
theorem tooDeep_written_iff
    {r : Reader} (hdialect : r.dialect.Ordinary) (hnonneg : 0 ≤ r.depthLimit)
    {m : Message} {text : String} {limit : Int}
    (htext : r.dialect.serialize r.depthLimit m = .ok text)
    (h : (r.readValue (.str text)).outcome = .ok m) (hlimit : 0 ≤ limit) :
    TooDeep ({ r with depthLimit := limit }.readValue (.str text)).outcome ↔
      limit < Message.depth m := by
  constructor
  · rintro ⟨fault, hfault, _⟩
    by_contra hdepth
    have hread := readValue_of_le hdialect hnonneg htext h (Int.not_lt.mp hdepth)
    cases hread.symm.trans hfault
  · exact tooDeep_of_lt h hlimit

end Reader

/-- The depth of a message decides which walks it is too deep for. -/
theorem Message.depth_decides
    (frames : Int) {limit : Int}
    (hlimit : clampDepth frames standardReserve standardDepth = limit) :
    (∀ m : Message,
      (Message.Filled m →
        (TooDeep (Plain.ofAnythingOnStack frames m.toValue).outcome ↔ limit < Message.depth m)) ∧
      (TooDeep (Inventory.ofAnythingOnStack frames m.toValue).outcome ↔ limit < Message.depth m) ∧
      ∀ d : Dialect,
        (Message.Writable d none m ↔ ∃ most text, 0 ≤ most ∧ d.serialize most m = .ok text) ∧
        (Message.Writable d none m →
          (TooDeep (d.serializeOnStack frames m.toValue).outcome ↔ limit < Message.depth m))) ∧
    (∀ (r : Reader) (v : Value) (m : Message), (r.readValue v).outcome = .ok m →
      Message.depth m ≤ max r.depthLimit 0 ∧
      (r.depthLimit = limit →
        ¬ TooDeep (Plain.ofAnythingOnStack frames m.toValue).outcome ∧
        ¬ TooDeep (Inventory.ofAnythingOnStack frames m.toValue).outcome ∧
        ∀ d : Dialect, ¬ TooDeep (d.serializeOnStack frames m.toValue).outcome)) ∧
    Dialect.standard.Ordinary ∧
    ∀ (r : Reader) (m : Message) (text : String) (depthLimit : Int),
      r.dialect.Ordinary → r.depthLimit = limit →
      (r.dialect.serializeOnStack frames m.toValue).outcome = .ok text →
      (r.readValue (.str text)).outcome = .ok m →
      0 ≤ depthLimit →
        (TooDeep ({ r with depthLimit := depthLimit }.readValue (.str text)).outcome ↔
          depthLimit < Message.depth m) := by
  subst hlimit
  refine ⟨?_, ?_, Dialect.standard_ordinary, ?_⟩
  · intro m
    refine ⟨Plain.tooDeep_iff frames, Inventory.tooDeep_iff frames m, ?_⟩
    intro d
    exact ⟨d.writable_iff m, d.tooDeep_iff frames⟩
  · intro r v m h
    have hdepth := Reader.depth_le_of_readValue h
    refine ⟨by omega, ?_⟩
    intro hlimit
    have hnonneg := clampDepth_nonneg frames
    have hle : Message.depth m ≤ clampDepth frames standardReserve standardDepth := by
      omega
    obtain ⟨_, closed, p, hreads⟩ := Reader.readValue_eq_ok_iff.mp h
    have hwell : Message.WellFormed r.dialect none m := hreads.wellFormed
    refine ⟨?_, ?_, ?_⟩
    · rw [Plain.tooDeep_iff frames (Message.WellFormed.filled m hwell)]
      omega
    · rw [Inventory.tooDeep_iff frames m]
      omega
    · intro d
      exact d.not_tooDeep hle
  · intro r m text depthLimit hdialect hlimit htext h hnonneg
    have hspelled : r.dialect.serialize r.depthLimit m = .ok text := by
      rw [r.dialect.serializeOnStack_outcome] at htext
      rw [hlimit]
      exact mapError_eq_ok_iff.mp htext
    have hlimit' : 0 ≤ r.depthLimit := hlimit ▸ clampDepth_nonneg frames
    exact Reader.tooDeep_written_iff hdialect hlimit' hspelled h hnonneg

/-- A number around a tag around a choice with an empty sub-message. -/
def mixedNesting : Message :=
  [.placeholder "n" (some "plural") none (some [("other", [
    .tag "b" (some [.placeholder "k" (some "select") none (some [("other", [])])])])])]

/-- The message is three levels deep: too deep for every walk with two levels, and for no walk with
three. What is written within three levels is too deep to be read within two. -/
theorem Message.depth_decides_mixedNesting :
    Message.depth mixedNesting = 3 ∧
      Message.Filled mixedNesting ∧
      Message.Writable .standard none mixedNesting ∧
      TooDeep (Plain.ofAnythingOnStack 58 (Message.toValue mixedNesting)).outcome ∧
      TooDeep (Inventory.ofAnythingOnStack 58 (Message.toValue mixedNesting)).outcome ∧
      TooDeep (Dialect.standard.serializeOnStack 58 (Message.toValue mixedNesting)).outcome ∧
      ∃ text r,
        (Dialect.standard.serializeOnStack 62 (Message.toValue mixedNesting)).outcome = .ok text ∧
        r = (⟨.standard, 0, clampDepth 62 standardReserve standardDepth⟩ : Reader) ∧
        (r.readValue (.str text)).outcome = .ok mixedNesting ∧
        ¬ TooDeep (Plain.ofAnythingOnStack 62 (Message.toValue mixedNesting)).outcome ∧
        TooDeep ({ r with depthLimit := 2 }.readValue (.str text)).outcome := by
  have hdepth : Message.depth mixedNesting = 3 := by
    decide
  have hfilled : Message.Filled mixedNesting := by
    simp [mixedNesting, Message.Filled, Node.Filled, Submessages.Filled]
  have hwritable : Message.Writable .standard none mixedNesting := by
    simp [mixedNesting, Message.Writable, Node.Writable, Submessages.Writable]
    decide
  obtain ⟨hwalks, -, -, -⟩ := Message.depth_decides 58 rfl
  obtain ⟨hplain, hinventory, hwrites⟩ := hwalks mixedNesting
  have hdeep : clampDepth 58 standardReserve standardDepth < Message.depth mixedNesting := by
    decide
  refine ⟨hdepth, hfilled, hwritable, (hplain hfilled).mpr hdeep, hinventory.mpr hdeep,
    ((hwrites .standard).2 hwritable).mpr hdeep, ?_⟩
  obtain ⟨-, hreads, -, hwritten⟩ := Message.depth_decides 62 rfl
  have htext : (Dialect.standard.serializeOnStack 62 (Message.toValue mixedNesting)).outcome =
      .ok "\x7bn, plural, other \x7b<b>\x7bk, select, other \x7b\x7d\x7d</b>\x7d\x7d" := by
    decide +kernel
  have hread : ((⟨.standard, 0, clampDepth 62 standardReserve standardDepth⟩ : Reader).readValue
      (.str "\x7bn, plural, other \x7b<b>\x7bk, select, other \x7b\x7d\x7d</b>\x7d\x7d")).outcome =
        .ok mixedNesting := by
    decide +kernel
  refine ⟨_, _, htext, rfl, hread, ((hreads _ _ _ hread).2 rfl).1, ?_⟩
  exact (hwritten _ _ _ 2 Dialect.standard_ordinary rfl htext hread (by decide)).mpr (by decide)

end MessageFormat
