import MessageFormat.Proofs.BlankDelimiters
import MessageFormat.Proofs.Lookalikes
import MessageFormat.Proofs.Writable

/-!
# Formats come back trimmed

The format of a placeholder without sub-messages is written as it is, and read between blanks. So
the blanks at its ends get lost, and a number comes back as the text of its digits
(`Format.reread`). Only formats that are blank altogether are refused.

What becomes of such a placeholder in the standard dialect is said outright by
`Reader.readValue_plainPlaceholder`: it is refused, or read back with its format trimmed; so it is
kept only if its format is a text without blanks at its ends.
-/

namespace MessageFormat

/-- What is left of a text when the blanks at both of its ends are dropped. -/
def trimBlanks (text : List Char) : List Char :=
  trimBlanksEnd (skipBlanks text)

namespace Format

/-- A format as text. -/
def written : Format → String
  | .text s => s
  | .offset n => decimal n

/-- What is read where a format was written. -/
def reread : Format → Format
  | .text s => .text (String.ofList (trimBlanks s.toList))
  | .offset n => .text (decimal n)

/-- A text without blanks at its ends. -/
def Kept : Format → Prop
  | .text s => StartsInk s ∧ EndsInk s
  | .offset _ => False

end Format

/-- A placeholder without sub-messages that no text stands for: the id or the type is empty, or a
format has no type, or is blank. -/
def Unexpressible (id : String) (type : Option String) (format : Option Format) : Prop :=
  id = "" ∨ type = some "" ∨ (type = none ∧ format ≠ none) ∨
    ∃ f, format = some f ∧ f.written.toList.all isBlank = true

theorem trimBlanks_of_ink
    {s : String} (hstart : StartsInk s) (hend : EndsInk s) :
    trimBlanks s.toList = s.toList := by
  rw [trimBlanks, skipBlanks_of_head? hstart, trimBlanksEnd_of_getLast? hend.2]

theorem all_isBlank_skipBlanks
    (text : List Char) :
    (skipBlanks text).all isBlank = text.all isBlank := by
  have hsplit : text.takeWhile isBlank ++ skipBlanks text = text :=
    List.takeWhile_append_dropWhile
  have hall := congrArg (List.all · isBlank) hsplit
  simpa only [List.all_append, List.all_takeWhile, Bool.true_and] using hall

theorem isBlank_decimal
    {n : Int} {c : Char} (hc : c ∈ (decimal n).toList) :
    isBlank c = false := by
  have hdigits : ∀ c ∈ Nat.toDigits 10 n.natAbs, isBlank c = false := fun c hc =>
    isBlank_of_isDigit (Nat.isDigit_of_mem_toDigits (by omega) (by omega) hc)
  unfold decimal at hc
  split at hc
  · rw [String.toList_append, Nat.toList_repr] at hc
    rcases List.mem_append.mp hc with hsign | hdigit
    · obtain rfl : c = '-' := by simpa using hsign
      decide
    · exact hdigits c hdigit
  · rw [Nat.toList_repr] at hc
    exact hdigits c hc

/-- The blanks at the ends are all that is lost. -/
theorem Format.reread_eq
    (f : Format) :
    f.reread = .text (String.ofList (trimBlanks f.written.toList)) := by
  cases f with
  | text s => rfl
  | offset n =>
      have hstart : StartsInk (decimal n) := by
        cases hhead : (decimal n).toList.head? with
        | none => simp [StartsInk, hhead]
        | some c => simp [StartsInk, hhead, isBlank_decimal (List.mem_of_head? hhead)]
      have hend : EndsInk (decimal n) := by
        refine ⟨fun hempty => by simpa [hempty] using Dialect.decimal_not_blank n, ?_⟩
        cases hlast : (decimal n).toList.getLast? with
        | none => rfl
        | some c => simp [isBlank_decimal (List.mem_of_getLast? hlast)]
      rw [written, trimBlanks_of_ink hstart hend, String.ofList_toList, reread]

/-- A text that is not blank is left alone exactly if there are no blanks at its ends. -/
theorem trimBlanks_eq_self_iff
    {s : String} (hink : s.toList.all isBlank = false) :
    String.ofList (trimBlanks s.toList) = s ↔ StartsInk s ∧ EndsInk s := by
  constructor
  · intro h
    have htrim : trimBlanks s.toList = s.toList := by
      simpa using congrArg String.toList h
    have hshorter : trimBlanksEnd (skipBlanks s.toList) <+: skipBlanks s.toList :=
      trimBlanksEnd_prefix _
    have hlength := hshorter.length_le
    have hskip : skipBlanks s.toList = s.toList := by
      refine (skipBlanks_suffix s.toList).eq_of_length_le ?_
      rw [← trimBlanks, htrim] at hlength
      exact hlength
    have hne : s ≠ "" := by
      rintro rfl
      simp at hink
    refine ⟨?_, hne, ?_⟩
    · rw [StartsInk, ← hskip]
      exact head?_skipBlanks s.toList
    · rw [← htrim]
      exact getLast?_trimBlanksEnd _
  · rintro ⟨hstart, hend⟩
    rw [trimBlanks_of_ink hstart hend, String.ofList_toList]

/-- A format that is not blank comes back as it was exactly if it is kept. -/
theorem Format.reread_eq_self_iff
    {f : Format} (hink : f.written.toList.all isBlank = false) :
    f.reread = f ↔ f.Kept := by
  cases f with
  | text s =>
      rw [reread, Format.text.injEq]
      exact trimBlanks_eq_self_iff hink
  | offset n => simp [reread, Kept]

theorem map_reread_eq_self_iff
    {format : Option Format}
    (hink : ∀ f, format = some f → f.written.toList.all isBlank = false) :
    format.map .reread = format ↔ ∀ f, format = some f → f.Kept := by
  cases format with
  | none => simp
  | some f => simpa using Format.reread_eq_self_iff (hink f rfl)

/-- A number that has more digits than any number may have. -/
def Overlong (format : Option Format) : Prop :=
  ∃ n, format = some (.offset n) ∧ leastOver maxDigits ≤ n.natAbs

/-- A placeholder as it is written, whatever its format is. -/
def Node.asWritten (id : String) (type : Option String) (format : Option Format) : Node :=
  .placeholder id type (format.map fun f => .text f.written) none

/-- A placeholder as it is read where it was written. -/
def Node.asReread (id : String) (type : Option String) (format : Option Format) : Node :=
  .placeholder id type (format.map .reread) none

namespace Dialect

variable {d : Dialect} {id : String} {type : Option String} {format : Option Format}

section Writing

variable {p : PlaceholderParts} {shown : Option String} {f : Format}

theorem writeToken_of_ne_empty
    (d : Dialect) (kind : TokenKind) {token : String} (hne : token ≠ "") :
    ∃ text, d.writeToken kind token = .ok text := by
  obtain ⟨text, htext, -⟩ := d.writeToken_writes kind hne
  exact ⟨text, htext⟩

theorem layoutPlain_of_blank
    (hparts : p.format = formatPart (some f)) (hsubs : p.submessages = none)
    (hblank : f.written.toList.all isBlank = true) :
    d.layoutPlain p shown = refuse (p.shownId.map .emptyFormat) := by
  cases f with
  | text s =>
      have hs : s.toList.all isBlank = true := hblank
      simp [layoutPlain, hsubs, hparts, formatPart, hs, bind, Except.bind]
  | offset n => simp [Format.written, decimal_not_blank] at hblank

theorem layoutPlain_of_overlong
    {n : Int} (hparts : p.format = formatPart (some (.offset n))) (hsubs : p.submessages = none)
    (hn : leastOver maxDigits ≤ n.natAbs) :
    d.layoutPlain p shown = .error .tooManyDigits := by
  have hnumber : writeNumber n = .error .tooManyDigits := by
    rw [writeNumber, if_neg (by omega)]
  simp [layoutPlain, hsubs, hparts, formatPart, hnumber, bind, Except.bind]

/-- A format that is neither blank nor overlong is written as it is. -/
theorem layoutPlain_format_writes
    (hparts : p.format = formatPart (some f)) (hsubs : p.submessages = none)
    (hink : f.written.toList.all isBlank = false) (hshort : ¬ Overlong (some f)) :
    Writes (d.layoutPlain p shown) (d.spellFormat (some (.text f.written))) := by
  have hwritten : d.layoutPlain p shown =
      .ok (d.separator.toString ++ " " ++ d.spell .body f.written) := by
    cases f with
    | text s =>
        have hs : s.toList.all isBlank = false := hink
        simp [layoutPlain, hsubs, hparts, formatPart, hs, bind, Except.bind, pure, Except.pure,
          Format.written]
    | offset n =>
        have hn : n.natAbs < leastOver maxDigits := by
          by_contra hle
          exact hshort ⟨n, rfl, by omega⟩
        simp [layoutPlain, hsubs, hparts, formatPart, writeNumber_eq hn, decimal_not_blank, bind,
          Except.bind, pure, Except.pure, Format.written]
  refine ⟨_, hwritten, fun after => ?_⟩
  simp [spell, spellText, spellFormat]

section Nodes

variable (d) (g : Guard) (owner : Option String)

/-- A placeholder that has an id and a type is not written if what follows its type is not. -/
theorem writeNode_of_layoutPlain_error
    {t : String} {e : WriteFault} (hid : id ≠ "") (ht : t ≠ "") (hplain : d.isBranching t = false)
    (h : ∀ p : PlaceholderParts, p.shownId = some id → p.format = formatPart format →
      p.submessages = none → d.layoutPlain p (some t) = .error e) :
    d.writeNode g owner (.placeholder id (some t) format none) = .error e := by
  obtain ⟨idText, hidText⟩ := d.writeToken_of_ne_empty .placeholderId hid
  obtain ⟨typeText, htypeText⟩ := d.writeToken_of_ne_empty .placeholderType ht
  have htail := h ⟨some id, .ok idText, some (d.typePart t), formatPart format, none⟩ rfl rfl rfl
  simp only [writeNode, layoutPlaceholder, hidText, Option.map_some, typePart, htypeText, hplain,
    bind, Except.bind, Bool.false_eq_true, if_false]
  simp only [typePart, htypeText, hplain] at htail
  rw [htail]

/-- What no text stands for is refused. -/
theorem writeNode_of_unexpressible
    (hplain : ∀ t, type = some t → d.isBranching t = false) (h : Unexpressible id type format) :
    ∃ reason, d.writeNode g owner (.placeholder id type format none) = unwritable reason := by
  by_cases hid : id = ""
  · exact ⟨.emptyToken .placeholderId, by subst hid; rw [writeNode]; rfl⟩
  obtain ⟨idText, hidText⟩ := d.writeToken_of_ne_empty .placeholderId hid
  cases type with
  | none =>
      have hformat : ∃ f, format = some f := by
        rcases h with hempty | hempty | ⟨-, hsome⟩ | ⟨f, hf, -⟩
        · exact absurd hempty hid
        · cases hempty
        · exact Option.ne_none_iff_exists'.mp hsome
        · exact ⟨f, hf⟩
      obtain ⟨f, rfl⟩ := hformat
      refine ⟨.formatWithoutType id, ?_⟩
      simp only [writeNode, layoutPlaceholder, hidText, bind, Except.bind]
      cases f <;> rfl
  | some t =>
      by_cases ht : t = ""
      · refine ⟨.emptyToken .placeholderType, ?_⟩
        subst ht
        simp only [writeNode, layoutPlaceholder, hidText, bind, Except.bind]
        rfl
      · rcases h with hempty | hempty | ⟨hnone, -⟩ | ⟨f, rfl, hblank⟩
        · exact absurd hempty hid
        · exact absurd (Option.some.inj hempty) ht
        · cases hnone
        · exact ⟨.emptyFormat id, d.writeNode_of_layoutPlain_error g owner hid ht (hplain t rfl)
            fun p hp hparts hsubs => by rw [layoutPlain_of_blank hparts hsubs hblank, hp]; rfl⟩

theorem writeNode_of_overlong
    (hplain : ∀ t, type = some t → d.isBranching t = false)
    (hexpressible : ¬ Unexpressible id type format) (h : Overlong format) :
    d.writeNode g owner (.placeholder id type format none) = .error .tooManyDigits := by
  obtain ⟨n, rfl, hn⟩ := h
  simp only [Unexpressible, not_or] at hexpressible
  obtain ⟨hid, htype, hsome, -⟩ := hexpressible
  cases type with
  | none => exact absurd ⟨rfl, nofun⟩ hsome
  | some t =>
      exact d.writeNode_of_layoutPlain_error g owner hid (fun ht => htype (congrArg some ht))
        (hplain t rfl) fun p _ hparts hsubs => layoutPlain_of_overlong hparts hsubs hn

/-- Any other placeholder without sub-messages is written with its format as it is. -/
theorem writeNode_plain_writes
    (hplain : ∀ t, type = some t → d.isBranching t = false)
    (hexpressible : ¬ Unexpressible id type format) (hshort : ¬ Overlong format) :
    Writes (d.writeNode g owner (.placeholder id type format none))
      (Node.spell d owner (Node.asWritten id type format)) := by
  simp only [Unexpressible, not_or, not_exists, not_and] at hexpressible
  obtain ⟨hid, htype, hsome, hink⟩ := hexpressible
  cases type with
  | none =>
      obtain rfl : format = none := by
        simpa using hsome rfl
      simpa [writeNode, formatPart, Node.asWritten, Node.spell] using
        layoutPlaceholder_bare_writes (d.writeToken_writes .placeholderId hid)
  | some t =>
      have ht : t ≠ "" := fun ht => htype (congrArg some ht)
      rw [writeNode]
      refine (layoutPlaceholder_writes (d.spellFormat (format.map fun f => .text f.written))
        (d.writeToken_writes .placeholderId hid) rfl (d.writeToken_writes .placeholderType ht)
        ?_).congr fun after => by rw [Node.asWritten, Node.spell]
      simp only [typePart, hplain t rfl, Bool.false_eq_true, if_false]
      cases format with
      | none => exact layoutPlain_writes (hplain t rfl) nofun rfl rfl
      | some f =>
          exact layoutPlain_format_writes rfl rfl (by simpa using hink f rfl) hshort

end Nodes

end Writing

end Dialect

section Reading

/-- The blanks in front of a format are skipped. -/
theorem Dialect.skipBlanks_spellText_body
    {d : Dialect} (hvisible : d.Visible) {s : String} (hink : s.toList.all isBlank = false)
    (after : List Char) :
    skipBlanks (' ' :: d.spellText .body s after) =
      d.spellText .body (String.ofList (skipBlanks s.toList)) after := by
  have hblanks : ∀ c ∈ s.toList.takeWhile isBlank, isBlank c = true :=
    List.all_eq_true.mp List.all_takeWhile
  have hraw : ∀ c ∈ s.toList.takeWhile isBlank, d.Raw .body c :=
    fun c hc => Dialect.raw_of_isBlank hvisible (hblanks c hc)
  have hsplit : s.toList = s.toList.takeWhile isBlank ++
      (String.ofList (skipBlanks s.toList)).toList := by
    rw [String.toList_ofList]
    exact List.takeWhile_append_dropWhile.symm
  have hne : String.ofList (skipBlanks s.toList) ≠ "" := by
    intro hempty
    rw [← all_isBlank_skipBlanks, String.ofList_eq_empty_iff.mp hempty] at hink
    cases hink
  have hstart : StartsInk (String.ofList (skipBlanks s.toList)) := by
    rw [StartsInk, String.toList_ofList]
    exact head?_skipBlanks _
  rw [skipBlanks_space, spellText_append hraw hsplit, skipBlanks,
    List.dropWhile_append_of_pos hblanks, ← skipBlanks,
    ← skipBlanks_space, skipBlanks_blank_spellFormat hvisible hne hstart]

namespace Context

variable {cx : Context} (hvisible : cx.dialect.Visible)
include hvisible

/-- A placeholder without sub-messages is read back with its format trimmed. -/
theorem reads_asWritten
    {id : String} {type : Option String} {format : Option Format}
    (hplain : ∀ t, type = some t → cx.dialect.isBranching t = false)
    (hnumeric : ∀ t, type = some t → cx.dialect.isNumeric t = false)
    (hexpressible : ¬ Unexpressible id type format) :
    Reads cx ⟨Message.spell cx.dialect none [Node.asWritten id type format] [], []⟩
      (.body ⟨[Node.asReread id type format], false⟩) ⟨[], []⟩ := by
  simp only [Unexpressible, not_or, not_exists, not_and] at hexpressible
  obtain ⟨hid, htype, hsome, hink⟩ := hexpressible
  cases type with
  | none =>
      obtain rfl : format = none := by
        simpa using hsome rfl
      refine Reads.body_of_placeholder (Reads.bare ?_)
      exact Dialect.readHead_spell_bare hvisible hid [] []
  | some t =>
      have ht : t ≠ "" := fun ht => htype (congrArg some ht)
      cases format with
      | none =>
          refine Reads.body_of_placeholder (Reads.typed ?_)
          exact Dialect.readHead_spell_typed hvisible hid ht (hplain t rfl) [] []
      | some f =>
          have hink := hink f rfl
          have hhead := Dialect.readHead_spell_formatted hvisible hid ht
            (' ' :: cx.dialect.spellText .body f.written [cx.dialect.closer]) []
          rw [Dialect.skipBlanks_spellText_body hvisible (by simpa using hink)] at hhead
          have hoffset (p : Place) : cx.dialect.readOffsetClause t p cx.seam = .ok (none, p) := by
            rw [Dialect.readOffsetClause, if_neg (by simp [hnumeric t rfl])]
          have hformat := Dialect.readFormat_spellText (d := cx.dialect)
            (s := String.ofList (skipBlanks f.written.toList))
            (by simpa [all_isBlank_skipBlanks] using hink) [] []
          rw [String.toList_ofList, ← trimBlanks] at hformat
          have hreads := Reads.body_of_placeholder (Reads.formatted hhead (hoffset _)
            (hplain t rfl) hformat (Dialect.readCloser_spell hvisible [] []))
          rwa [← Format.reread_eq] at hreads

end Context

end Reading

theorem Dialect.standard_isNumeric
    {type : String} (h : standard.isBranching type = false) :
    standard.isNumeric type = false := by
  simp [isBranching, isNumeric, standard, standardNumericTypes, standardBranchingTypes] at h ⊢
  exact ⟨h.1, h.2.1⟩

/-- What becomes of a placeholder without sub-messages in the standard dialect. It is refused if
no text stands for it, and a number may have too many digits. Otherwise it is written, and
unless the text is larger than the reader allows, it is read back with its format trimmed. So it
is kept exactly if its format, if there is one, is a text without blanks at its ends. -/
theorem Reader.readValue_plainPlaceholder
    (frames : Int) (maxSize depthLimit : Option Int)
    (id : String) (type : Option String) (format : Option Format)
    (hplain : ∀ t, type = some t → Dialect.standard.isBranching t = false) :
    let written := (Dialect.standard.serializeOnStack frames
      (Message.toValue [.placeholder id type format none])).outcome
    ∃ r, (Reader.make frames (.dialect .standard) (.dict []) maxSize depthLimit).outcome = .ok r ∧
      (Unexpressible id type format →
        ∃ reason, written = .error (WriteFault.unwritable reason).toFault) ∧
      (¬ Unexpressible id type format → Overlong format →
        written = .error WriteFault.tooManyDigits.toFault) ∧
      (¬ Unexpressible id type format → ¬ Overlong format →
        ∃ text, written = .ok text ∧
          (¬ r.Refuses text.toList →
            (r.readValue (.str text)).outcome =
              .ok [.placeholder id type (format.map .reread) none]) ∧
          ((r.readValue (.str text)).outcome = .ok [.placeholder id type format none]
            ↔
          ¬ r.Refuses text.toList ∧ ∀ f, format = some f → f.Kept)) := by
  intro written
  have hdialect : (Reader.dialectOf (.dialect .standard) (.dict [])).outcome = .ok .standard := rfl
  have hwritten : written = ((Dialect.standard.writeNodes
      { limit := clampDepth frames standardReserve standardDepth } none
      [.placeholder id type format none]).mapError WriteFault.toFault) :=
    Dialect.standard.serializeOnStack_outcome _ _
  simp only [Dialect.writeNodes] at hwritten
  refine ⟨_, Reader.make_outcome hdialect frames maxSize depthLimit, ?_, ?_, ?_⟩
  · intro h
    obtain ⟨reason, hreason⟩ := Dialect.standard.writeNode_of_unexpressible
      { limit := clampDepth frames standardReserve standardDepth } none hplain h
    exact ⟨reason, by rw [hwritten, hreason]; rfl⟩
  · intro h hlong
    rw [hwritten, Dialect.standard.writeNode_of_overlong _ none hplain h hlong]
    rfl
  · intro h hshort
    obtain ⟨text, htext, hspelled⟩ := Dialect.standard.writeNode_plain_writes
      { limit := clampDepth frames standardReserve standardDepth } none hplain h hshort
    have htoList : text.toList = Message.spell .standard none
        [Node.asWritten id type format] [] := by
      rw [Message.spell, Message.spell, ← hspelled, List.append_nil]
    refine ⟨text, by rw [hwritten, htext]; simp [bind, Except.bind, pure, Except.pure], ?_⟩
    generalize hr : (Reader.mk _ _ _) = r
    have hreads : Context.Reads r.context ⟨text.toList, []⟩
        (.body ⟨[Node.asReread id type format], false⟩) ⟨[], []⟩ := by
      subst hr
      rw [htoList]
      exact Context.reads_asWritten Dialect.standard_ordinary.visible hplain
        (fun t ht => Dialect.standard_isNumeric (hplain t ht)) h
    have hread (hsize : ¬ r.Refuses text.toList) :
        (r.readValue (.str text)).outcome = .ok [Node.asReread id type format] :=
      Reader.readValue_eq_ok_iff.mpr ⟨hsize, _, _, hreads⟩
    have hsame : Node.asReread id type format = .placeholder id type format none ↔
        ∀ f, format = some f → f.Kept := by
      rw [← map_reread_eq_self_iff fun f hf => by
        simpa using fun hblank => h (.inr (.inr (.inr ⟨f, hf, hblank⟩)))]
      simp [Node.asReread]
    refine ⟨hread, ?_⟩
    constructor
    · intro hkept
      have hsize := (Reader.readValue_eq_ok_iff.mp hkept).1
      refine ⟨hsize, hsame.mp ?_⟩
      exact (List.cons.inj (Except.ok.inj ((hread hsize).symm.trans hkept))).1
    · rintro ⟨hsize, hkept⟩
      rw [hread hsize, hsame.mpr hkept]

theorem write_blankBeforeFormat :
    (Dialect.standard.serializeOnStack 1000
      (Message.toValue [.placeholder "a" (some "date") (some (.text " x")) none])).outcome =
      .ok "\x7ba, date,  x\x7d" := by
  decide +kernel

theorem plain_date
    (t : String) (ht : some "date" = some t) :
    Dialect.standard.isBranching t = false := by
  cases ht
  decide

/-- The blank at the start of a format gets lost. -/
theorem Reader.readValue_plainPlaceholder_blankBefore :
    (∀ t, some "date" = some t → Dialect.standard.isBranching t = false) ∧
      ∃ text r,
        (Dialect.standard.serializeOnStack 1000
          (Message.toValue [.placeholder "a" (some "date") (some (.text " x")) none])).outcome =
          .ok text ∧
        (Reader.make 1000 (.dialect .standard) (.dict []) none none).outcome = .ok r ∧
        (r.readValue (.str text)).outcome =
          .ok [.placeholder "a" (some "date") (some (.text "x")) none] := by
  obtain ⟨r, hmake, -, -, hkept⟩ := readValue_plainPlaceholder 1000 none none "a" (some "date")
    (some (.text " x")) plain_date
  have hexpressible : ¬ Unexpressible "a" (some "date") (some (.text " x")) := by
    simp only [Unexpressible, not_or]
    refine ⟨by decide, by decide, by simp, ?_⟩
    rintro ⟨f, hf, hblank⟩
    cases hf
    exact absurd hblank (by decide)
  obtain ⟨text, htext, hread, -⟩ := hkept hexpressible (by rintro ⟨n, hn, -⟩; cases hn)
  refine ⟨plain_date, text, r, htext, hmake, ?_⟩
  cases write_blankBeforeFormat.symm.trans htext
  have hdialect : (Reader.dialectOf (.dialect .standard) (.dict [])).outcome = .ok .standard := rfl
  cases (Reader.make_outcome hdialect 1000 none none).symm.trans hmake
  exact hread (by unfold Refuses; decide)

/-- Not every placeholder without sub-messages is either refused or kept: of a blank at the start of
a format, neither is true. -/
theorem Reader.not_readValue_plainPlaceholder :
    ¬ ∀ (id : String) (type : Option String) (format : Option Format),
      (∀ t, type = some t → Dialect.standard.isBranching t = false) →
      (∃ reason, (Dialect.standard.serializeOnStack 1000
          (Message.toValue [.placeholder id type format none])).outcome =
          .error (WriteFault.unwritable reason).toFault) ∨
        ∃ text,
          (Dialect.standard.serializeOnStack 1000
            (Message.toValue [.placeholder id type format none])).outcome = .ok text ∧
          ((⟨.standard, standardSize, 100⟩ : Reader).readValue (.str text)).outcome =
            .ok [.placeholder id type format none] := by
  intro hall
  rcases hall "a" (some "date") (some (.text " x")) plain_date with
    ⟨reason, hrefused⟩ | ⟨text, htext, hread⟩
  · cases write_blankBeforeFormat.symm.trans hrefused
  · cases write_blankBeforeFormat.symm.trans htext
    have hlost : ((⟨.standard, standardSize, 100⟩ : Reader).readValue
        (.str "\x7ba, date,  x\x7d")).outcome ≠
        .ok [.placeholder "a" (some "date") (some (.text " x")) none] := by
      decide +kernel
    exact hlost hread

end MessageFormat
