import MessageFormat.Message.Serialize
import MessageFormat.Proofs.Renaming.Messages

/-!
# Writing commutes with renaming

If a message and a dialect are renamed together, the text that is written is renamed, and so is the
fault if there is one (`serialize_rename`). Quoting commutes with renaming since a character is a
mark exactly if its renaming is one; each layout then puts renamed parts together, and the walk over
the message follows by induction.
-/

namespace MessageFormat

namespace Renaming

variable (s : Renaming)

section Spelling

variable (quote : Char)

theorem spellRun_map
    (live : Bool) (run : List Char) :
    Quoted.spellRun (s.char quote) live (run.map s.char) =
      (Quoted.spellRun quote live run).map s.char := by
  have hdoubled :
      ((run.map s.char).flatMap fun c => if c = s.char quote then [c, c] else [c]) =
        (run.flatMap fun c => if c = quote then [c, c] else [c]).map s.char := by
    rw [List.flatMap_map, List.map_flatMap]
    congr 1
    funext c
    simp only [char_inj]
    split <;> rfl
  simp only [Quoted.spellRun, hdoubled]
  split <;> simp

theorem spellFrom_map
    {isMark isMark' : Char → Bool} (hmark : ∀ c, isMark' (s.char c) = isMark c)
    (live : Bool) (run text : List Char) :
    Quoted.spellFrom (s.char quote) isMark' live (run.map s.char) (text.map s.char) =
      (Quoted.spellFrom quote isMark live run text).map s.char := by
  induction text generalizing live run with
  | nil => exact s.spellRun_map quote live run
  | cons c rest ih =>
      have happend : run.map s.char ++ [s.char c] = (run ++ [c]).map s.char := by
        rw [List.map_append]
        rfl
      -- Behind a character that is no mark, a run starts anew.
      have hlater := ih false []
      simp only [List.map_nil] at hlater
      simp only [List.map_cons, Quoted.spellFrom, char_inj, hmark, happend, ih, spellRun_map,
        hlater]
      split
      · rfl
      · split
        · rfl
        · simp

@[simp] theorem spell_str
    (d : Dialect) (m : Mode) (text : String) :
    (s.dialect d).spell m (s.str text) = s.str (d.spell m text) := by
  have hspell := s.spellFrom_map d.quote (s.stops_dialect d m) false [] text.toList
  simp only [List.map_nil] at hspell
  rw [Dialect.spell, toList_str, dialect_quote, Quoted.spell, hspell, Dialect.spell, str_ofList,
    Quoted.spell]

end Spelling

/-- The digits of a number stay as they are, and so does its sign. -/
theorem str_decimal
    (n : Int) :
    s.str (decimal n) = decimal n := by
  have hdigits : s.str (Nat.repr n.natAbs) = Nat.repr n.natAbs := by
    have hkept : ∀ c ∈ Nat.toDigits 10 n.natAbs, s.char c = c := fun c hc =>
      s.char_of_isDigit (Nat.isDigit_of_mem_toDigits (by omega) (by omega) hc)
    rw [Nat.repr, str_ofList, (List.map_congr_left hkept).trans (List.map_id' _)]
  have hminus : s.str "-" = "-" := congrArg (fun c => String.ofList [c]) s.char_minus
  rw [decimal]
  split
  · rw [str_append, hminus, hdigits]
  · exact hdigits

@[simp] theorem str_blank :
    s.str " " = " " :=
  congrArg (fun c => String.ofList [c]) (s.char_of_isBlank (by decide : isBlank ' ' = true))

@[simp] theorem str_singleton
    (c : Char) :
    s.str (String.singleton c) = String.singleton (s.char c) := by
  simp [str]

@[simp] theorem str_push
    (text : String) (c : Char) :
    s.str (text.push c) = (s.str text).push (s.char c) := by
  simp [str]

theorem str_intercalate
    (texts : List String) :
    s.str (String.intercalate " " texts) = String.intercalate " " (texts.map s.str) := by
  induction texts with
  | nil => rfl
  | cons text texts ih =>
      cases texts with
      | nil => simp
      | cons next texts =>
          rw [List.map_cons, List.map_cons, String.intercalate_cons_cons,
            String.intercalate_cons_cons, str_append, str_append, str_blank, ih, List.map_cons]

/-- What cannot be written, renamed. -/
def reason : Unwritable → Unwritable
  | .emptyToken kind => .emptyToken kind
  | .strayReference id => .strayReference (s.str id)
  | .unsupported valueLiteral => .unsupported (s.str valueLiteral)
  | .formatWithoutType id => .formatWithoutType (s.str id)
  | .superfluousSubmessages type id => .superfluousSubmessages (s.str type) (s.str id)
  | .emptyFormat id => .emptyFormat (s.str id)
  | .missingSubmessage id => .missingSubmessage (s.str id)
  | .formatNotOffset id => .formatNotOffset (s.str id)
  | .tagsNotAllowed name => .tagsNotAllowed (s.str name)

/-- Why writing stopped, renamed. -/
def writeFault : WriteFault → WriteFault
  | .unwritable why => .unwritable (s.reason why)
  | other => other

/-- What is written, or the fault, renamed. -/
def written {α : Type} (rename : α → α) : Except WriteFault α → Except WriteFault α
  | .ok a => .ok (rename a)
  | .error f => .error (s.writeFault f)

section Written

variable {α β : Type} {rename : α → α} {rename' : β → β}

@[simp] theorem written_ok
    (a : α) :
    s.written rename (.ok a) = .ok (rename a) := by
  rfl

/-- Renamed parts are put together to the renamed whole. -/
theorem written_bind
    {next next' : α → Except WriteFault β}
    (hnext : ∀ a, next' (rename a) = s.written rename' (next a)) (first : Except WriteFault α) :
    (s.written rename first >>= next') = s.written rename' (first >>= next) := by
  cases first with
  | error f => rfl
  | ok a => exact hnext a

theorem written_map
    {f f' : α → β} (hf : ∀ a, f' (rename a) = rename' (f a)) (first : Except WriteFault α) :
    (s.written rename first).map f' = s.written rename' (first.map f) := by
  cases first with
  | error f => rfl
  | ok a => exact congrArg Except.ok (hf a)

theorem written_append
    (first others : Written) :
    (do
      let text ← s.written s.str first
      let later ← s.written s.str others
      return text ++ later) =
      s.written s.str (do
        let text ← first
        let later ← others
        return text ++ later) := by
  refine s.written_bind (fun text => ?_) first
  refine s.written_bind (fun later => ?_) others
  exact congrArg Except.ok (s.str_append text later).symm

/-- A refusal that shows a part, renamed. -/
theorem refuse_rename
    {why why' : String → Unwritable} (hwhy : ∀ text, s.reason (why text) = why' (s.str text))
    (shown : Option String) :
    refuse ((shown.map s.str).map why') = s.written rename (refuse (shown.map why)) := by
  cases shown with
  | none => rfl
  | some text => exact congrArg (Except.error ∘ WriteFault.unwritable) (hwhy text).symm

/-- What is written inside of a body is renamed; whether it is entered is not a matter of names. -/
theorem enterBody_bind
    (g : Guard) {next next' : Guard → Except WriteFault α}
    (hnext : ∀ inner, next' inner = s.written rename (next inner)) :
    (g.enterBody >>= next') = s.written rename (g.enterBody >>= next) := by
  unfold Guard.enterBody Guard.enter
  split
  · rfl
  · exact hnext _

end Written

/-- A format that is written, renamed. -/
def formatPart : FormatPart → FormatPart
  | .absent => .absent
  | .offset text => .offset (s.written s.str text)
  | .text text => .text (s.written s.str text)

/-- Sub-messages that are written, renamed. -/
def submessagesPart (p : SubmessagesPart) : SubmessagesPart where
  complete := p.complete
  text := s.written s.str p.text

/-- A type that is written, renamed. -/
def typePart (p : TypePart) : TypePart where
  shown := p.shown.map s.str
  text := s.written s.str p.text
  isBranching := p.isBranching
  isNumeric := p.isNumeric

/-- The parts of a placeholder, renamed. -/
def placeholderParts (p : PlaceholderParts) : PlaceholderParts where
  shownId := p.shownId.map s.str
  id := s.written s.str p.id
  type := p.type.map s.typePart
  format := s.formatPart p.format
  submessages := p.submessages.map s.submessagesPart

/-- The parts of a tag, renamed. -/
def tagParts (p : TagParts) : TagParts where
  shownName := p.shownName.map s.str
  name := s.written s.str p.name
  children := p.children.map (s.written s.str)

section Layouts

variable (d : Dialect)

theorem writeToken_rename
    (kind : TokenKind) (token : String) :
    (s.dialect d).writeToken kind (s.str token) = s.written s.str (d.writeToken kind token) := by
  simp only [Dialect.writeToken, isEmpty_str, spell_str]
  split <;> rfl

theorem writeNumber_rename
    (n : Int) :
    s.written s.str (writeNumber n) = writeNumber n := by
  unfold writeNumber
  split
  · rw [written_ok, str_decimal]
  · rfl

theorem layoutOffset_rename
    (shownId : Option String) (isNumeric : Bool) (format : FormatPart) :
    (s.dialect d).layoutOffset (shownId.map s.str) isNumeric (s.formatPart format) =
      s.written s.str (d.layoutOffset shownId isNumeric format) := by
  have hkeyword : (s.dialect d).offsetKeyword = s.str d.offsetKeyword := rfl
  have hrefused : refuse ((shownId.map s.str).map .formatNotOffset) =
      s.written s.str (refuse (shownId.map .formatNotOffset)) :=
    s.refuse_rename (fun _ => rfl) shownId
  cases format with
  | absent => rfl
  | text text => exact hrefused
  | offset text =>
      simp only [Dialect.layoutOffset, formatPart]
      split
      · exact s.written_map (by simp [hkeyword]) text
      · exact hrefused

theorem layoutBranching_rename
    (p : PlaceholderParts) (isNumeric : Bool) :
    (s.dialect d).layoutBranching (s.placeholderParts p) isNumeric =
      s.written s.str (d.layoutBranching p isNumeric) := by
  obtain ⟨shownId, id, type, format, submessages⟩ := p
  match submessages with
  | none => exact s.refuse_rename (fun _ => rfl) shownId
  | some ⟨false, text⟩ => exact s.refuse_rename (fun _ => rfl) shownId
  | some ⟨true, text⟩ =>
      simp only [Dialect.layoutBranching, placeholderParts, Option.map_some, submessagesPart,
        layoutOffset_rename]
      refine s.written_bind (fun offset => ?_) _
      refine s.written_bind (fun submessages => ?_) _
      simp [pure, Except.pure]

theorem layoutPlain_rename
    (p : PlaceholderParts) (shownType : Option String) :
    (s.dialect d).layoutPlain (s.placeholderParts p) (shownType.map s.str) =
      s.written s.str (d.layoutPlain p shownType) := by
  have hformat : ∀ text : Written,
      (do
        let format ← s.written s.str text
        if format.toList.all isBlank then
          refuse ((p.shownId.map s.str).map .emptyFormat)
        else
          return (s.dialect d).separator.toString ++ " " ++ (s.dialect d).spell .body format) =
        s.written s.str (do
          let format ← text
          if format.toList.all isBlank then
            refuse (p.shownId.map .emptyFormat)
          else
            return d.separator.toString ++ " " ++ d.spell .body format) := by
    intro text
    refine s.written_bind (fun format => ?_) text
    simp only [toList_str, all_isBlank_map, spell_str]
    split
    · exact s.refuse_rename (fun _ => rfl) p.shownId
    · simp [pure, Except.pure]
  obtain ⟨shownId, id, type, format, submessages⟩ := p
  cases submessages with
  | some subs =>
      cases shownType with
      | none => rfl
      | some shown => exact s.refuse_rename (fun _ => rfl) shownId
  | none =>
      cases format with
      | absent => rfl
      | offset text => exact hformat text
      | text text => exact hformat text

theorem layoutPlaceholder_rename
    (p : PlaceholderParts) :
    (s.dialect d).layoutPlaceholder (s.placeholderParts p) =
      s.written s.str (d.layoutPlaceholder p) := by
  refine s.written_bind (fun id => ?_) p.id
  obtain ⟨shownId, writtenId, type, format, submessages⟩ := p
  cases type with
  | none =>
      cases format with
      | absent =>
          cases submessages with
          | none => simp [placeholderParts, formatPart, pure, Except.pure]
          | some subs => exact s.refuse_rename (fun _ => rfl) shownId
      | offset text => exact s.refuse_rename (fun _ => rfl) shownId
      | text text => exact s.refuse_rename (fun _ => rfl) shownId
  | some t =>
      refine s.written_bind (fun type => ?_) t.text
      simp only [typePart, layoutBranching_rename, layoutPlain_rename]
      split
      · refine s.written_bind (fun tail => ?_) _
        simp [pure, Except.pure]
      · refine s.written_bind (fun tail => ?_) _
        simp [pure, Except.pure]

theorem layoutSubmessage_rename
    (selector body : Written) :
    (s.dialect d).layoutSubmessage (s.written s.str selector) (s.written s.str body) =
      s.written s.str (d.layoutSubmessage selector body) := by
  refine s.written_bind (fun selector => ?_) selector
  refine s.written_bind (fun body => ?_) body
  simp [pure, Except.pure]

theorem layoutTag_rename
    (p : TagParts) :
    (s.dialect d).layoutTag (s.tagParts p) = s.written s.str (d.layoutTag p) := by
  obtain ⟨shownName, name, children⟩ := p
  simp only [Dialect.layoutTag, dialect_tagsAllowed, tagParts]
  split
  · refine s.written_bind (fun name => ?_) name
    cases children with
    | none => simp [pure, Except.pure]
    | some children =>
        refine s.written_bind (fun body => ?_) children
        simp [pure, Except.pure]
  · exact s.refuse_rename (fun _ => rfl) shownName

section Parts

variable (id type : String) (owner : Option String)

theorem modeOf_rename :
    Dialect.modeOf (owner.map s.str) = Dialect.modeOf owner := by
  cases owner <;> rfl

theorem ownerOf_rename :
    (s.dialect d).ownerOf (s.str id) (s.str type) = (d.ownerOf id type).map s.str := by
  simp only [Dialect.ownerOf, isNumeric_dialect]
  split <;> rfl

theorem typePart_rename :
    (s.dialect d).typePart (s.str type) = s.typePart (d.typePart type) := by
  simp [Dialect.typePart, typePart, writeToken_rename]

theorem typeParts_rename
    (type : Option String) :
    (type.map s.str).map (s.dialect d).typePart = (type.map d.typePart).map s.typePart := by
  cases type with
  | none => rfl
  | some type => exact congrArg some (s.typePart_rename d type)

theorem owners_rename
    (type : Option String) :
    (type.map s.str).bind ((s.dialect d).ownerOf (s.str id)) =
      (type.bind (d.ownerOf id)).map s.str := by
  cases type with
  | none => rfl
  | some type => exact s.ownerOf_rename d id type

theorem formatPart_rename
    (format : Option Format) :
    Dialect.formatPart (format.map s.format) = s.formatPart (Dialect.formatPart format) := by
  match format with
  | none => rfl
  | some (.text content) => rfl
  | some (.offset n) =>
      exact congrArg FormatPart.offset (s.writeNumber_rename n).symm

theorem writeReference_rename :
    (s.dialect d).writeReference (owner.map s.str) (s.str id) =
      s.written s.str (d.writeReference owner id) := by
  have howner : owner.map s.str = some (s.str id) ↔ owner = some id := by
    cases owner <;> simp
  simp only [Dialect.writeReference, howner]
  split
  · simp
  · rfl

end Parts

end Layouts

section Messages

mutual

theorem writeNode_rename
    (d : Dialect) (g : Guard) (owner : Option String) (n : Node) :
    (s.dialect d).writeNode g (owner.map s.str) (s.node n) =
      s.written s.str (d.writeNode g owner n) := by
  match n with
  | .text content => simp [Dialect.writeNode, node, modeOf_rename]
  | .reference id =>
      rw [node, Dialect.writeNode, Dialect.writeNode]
      exact s.writeReference_rename d id owner
  | .placeholder id type format none =>
      rw [node, Dialect.writeNode, Dialect.writeNode, ← layoutPlaceholder_rename]
      simp only [placeholderParts, writeToken_rename, typeParts_rename, formatPart_rename,
        Option.map_none, Option.map_some]
  | .placeholder id type format (some subs) =>
      have hsubs := writeSubmessages_rename d g (type.bind (d.ownerOf id)) subs
      have htext :
          ((s.dialect d).writeSubmessages g ((type.bind (d.ownerOf id)).map s.str)
              (s.submessages subs)).map (String.intercalate " ") =
            s.written s.str
              ((d.writeSubmessages g (type.bind (d.ownerOf id)) subs).map
                (String.intercalate " ")) := by
        rw [hsubs]
        exact s.written_map (fun texts => (s.str_intercalate texts).symm) _
      rw [node, Dialect.writeNode, Dialect.writeNode, ← layoutPlaceholder_rename]
      simp only [placeholderParts, writeToken_rename, typeParts_rename, formatPart_rename,
        Option.map_some, submessagesPart, isComplete_submessages, owners_rename, htext]
  | .tag name none =>
      rw [node, Dialect.writeNode, Dialect.writeNode, ← layoutTag_rename, writeToken_rename]
      rfl
  | .tag name (some []) =>
      rw [node, message, Dialect.writeNode, Dialect.writeNode, ← layoutTag_rename,
        writeToken_rename]
      rfl
  | .tag name (some (first :: rest)) =>
      have hchildren :
          (do
            let inner ← g.enterBody
            let first ← (s.dialect d).writeNode inner none (s.node first)
            let others ← (s.dialect d).writeNodes inner none (s.message rest)
            return first ++ others) =
            s.written s.str (do
              let inner ← g.enterBody
              let first ← d.writeNode inner none first
              let others ← d.writeNodes inner none rest
              return first ++ others) := by
        refine s.enterBody_bind g fun inner => ?_
        have hfirst := writeNode_rename d inner none first
        have hrest := writeNodes_rename d inner none rest
        rw [Option.map_none] at hfirst hrest
        rw [hfirst, hrest]
        exact s.written_append _ _
      rw [node, message, Dialect.writeNode, Dialect.writeNode, ← layoutTag_rename,
        writeToken_rename, hchildren]
      rfl

theorem writeNodes_rename
    (d : Dialect) (g : Guard) (owner : Option String) (m : List Node) :
    (s.dialect d).writeNodes g (owner.map s.str) (s.message m) =
      s.written s.str (d.writeNodes g owner m) := by
  match m with
  | [] => rfl
  | n :: rest =>
      rw [message, Dialect.writeNodes, Dialect.writeNodes, writeNode_rename d g owner n,
        writeNodes_rename d g owner rest]
      exact s.written_append _ _

theorem writeSubmessages_rename
    (d : Dialect) (g : Guard) (owner : Option String) (subs : List (String × List Node)) :
    (s.dialect d).writeSubmessages g (owner.map s.str) (s.submessages subs) =
      s.written (List.map s.str) (d.writeSubmessages g owner subs) := by
  match subs with
  | [] => rfl
  | (selector, body) :: rest =>
      have hbody :
          (do
            let inner ← g.enterBody
            (s.dialect d).writeNodes inner (owner.map s.str) (s.message body)) =
            s.written s.str (do
              let inner ← g.enterBody
              d.writeNodes inner owner body) :=
        s.enterBody_bind g fun inner => writeNodes_rename d inner owner body
      rw [submessages, Dialect.writeSubmessages, Dialect.writeSubmessages, hbody,
        writeToken_rename, layoutSubmessage_rename, writeSubmessages_rename d g owner rest]
      refine s.written_bind (fun first => ?_) _
      refine s.written_bind (fun others => ?_) _
      rfl

end

/-- A message that is renamed together with the dialect is written as the renamed text, or refused
for the renamed reason. -/
theorem serialize_rename
    (d : Dialect) (limit : Int) (m : Message) :
    (s.dialect d).serialize limit (s.message m) = s.written s.str (d.serialize limit m) :=
  s.writeNodes_rename d { limit := limit } none m

end Messages

end Renaming

end MessageFormat
