import MessageFormat.Proofs.WellFormed

/-!
# The spelling of well-formed messages

`Message.spell` writes a message in front of the text that follows it, without any test. Writing
with its tests gives the same text for every well-formed message within the nesting limit
(`serialize_eq`): nothing in such a message is unwritable.

A text in front of another is easier to read back than a text by itself, because what a reader of
a part sees is the part and everything after it. Each sub-message is written with the blank that
separates it from what comes before.
-/

namespace MessageFormat

namespace Dialect

/-- A text of this mode in front of another. -/
def spellText (d : Dialect) (m : Mode) (s : String) (after : List Char) : List Char :=
  Quoted.spell d.quote (d.stops m) s.toList ++ after

/-- An offset clause in front of sub-messages, with the blank before it. -/
def spellOffsetClause (d : Dialect) (format : Option Format) (after : List Char) : List Char :=
  match format with
  | some (.offset n) => ' ' :: ((d.spellOffset n).toList ++ after)
  | _ => after

/-- A format in front of the closer, with what separates it from the type. -/
def spellFormat (d : Dialect) (format : Option Format) (after : List Char) : List Char :=
  match format with
  | some (.text s) => d.separator :: ' ' :: d.spellText .body s after
  | _ => after

/-- The start of a tag in front of what follows its name. -/
def spellTag (d : Dialect) (name : String) (after : List Char) : List Char :=
  d.tagOpener :: d.spellText .tagName name after

/-- The closing tag in front of what follows it. -/
def spellClosingTag (d : Dialect) (name : String) (after : List Char) : List Char :=
  d.tagOpener :: d.tagSlash :: d.spellText .tagName name (d.tagCloser :: after)

end Dialect

mutual

/-- A node in front of a text. -/
def Node.spell (d : Dialect) (owner : Option String) : Node → List Char → List Char
  | .text s, after => d.spellText (Dialect.modeOf owner) s after
  | .reference _, after => d.reference :: after
  | .placeholder id none _ _, after => d.opener :: d.spellText .word id (d.closer :: after)
  | .placeholder id (some type) format none, after =>
      d.opener :: d.spellText .word id (d.separator :: ' ' ::
        d.spellText .word type (d.spellFormat format (d.closer :: after)))
  | .placeholder id (some type) format (some subs), after =>
      d.opener :: d.spellText .word id (d.separator :: ' ' ::
        d.spellText .word type (d.separator :: d.spellOffsetClause format
          (Submessages.spell d (d.ownerOf id type) subs (d.closer :: after))))
  | .tag name none, after => d.spellTag name (d.tagSlash :: d.tagCloser :: after)
  | .tag name (some children), after =>
      d.spellTag name (d.tagCloser :: Message.spell d none children (d.spellClosingTag name after))

/-- The nodes of a body in front of a text. -/
def Message.spell (d : Dialect) (owner : Option String) : List Node → List Char → List Char
  | [], after => after
  | node :: rest, after => Node.spell d owner node (Message.spell d owner rest after)

/-- Sub-messages in front of a text, with a blank before each. -/
def Submessages.spell (d : Dialect) (owner : Option String) :
    List (String × List Node) → List Char → List Char
  | [], after => after
  | (selector, body) :: rest, after =>
      ' ' :: d.spellText .word selector (' ' :: d.opener ::
        Message.spell d owner body (d.closer :: Submessages.spell d owner rest after))

end

namespace Dialect

/-- Writing gives this text, in front of any other. -/
def Writes (written : Written) (spelled : List Char → List Char) : Prop :=
  ∃ text, written = .ok text ∧ ∀ after, text.toList ++ after = spelled after

theorem Writes.congr
    {written : Written} {spelled spelled' : List Char → List Char}
    (h : Writes written spelled) (heq : ∀ after, spelled after = spelled' after) :
    Writes written spelled' := by
  obtain ⟨text, htext, hspelled⟩ := h
  exact ⟨text, htext, fun after => (hspelled after).trans (heq after)⟩

theorem writeToken_writes
    (d : Dialect) (kind : TokenKind) {token : String} (hne : token ≠ "") :
    Writes (d.writeToken kind token)
      (d.spellText (if kind = .tagName then .tagName else .word) token) := by
  refine ⟨d.spell (if kind = .tagName then .tagName else .word) token, ?_, ?_⟩
  · simp [writeToken, hne]
  · intro after
    rw [spell, String.toList_ofList]
    rfl

theorem writeNumber_eq
    {n : Int} (hn : n.natAbs < leastOver maxDigits) :
    writeNumber n = .ok (decimal n) := by
  unfold writeNumber
  rw [if_pos hn]

theorem enterBody_eq
    {g : Guard} (hg : g.depth < g.limit) :
    g.enterBody = .ok { g with depth := g.depth + 1 } := by
  have hfull : g.isFull = false := by
    simp [Guard.isFull, hg]
  simp [Guard.enterBody, Guard.enter, hfull]

variable {d : Dialect}

theorem layoutTag_empty_writes
    {shown : Option String} {name : String} {written : Written}
    (htags : d.tagsAllowed = true) (hname : Writes written (d.spellText .tagName name)) :
    Writes (d.layoutTag ⟨shown, written, none⟩)
      (fun after => d.spellTag name (d.tagSlash :: d.tagCloser :: after)) := by
  obtain ⟨text, rfl, htext⟩ := hname
  refine ⟨d.tagOpener.toString ++ text ++ d.tagSlash.toString ++ d.tagCloser.toString, ?_, ?_⟩
  · simp [layoutTag, htags]
  · intro after
    simp [spellTag, ← htext]

theorem layoutTag_writes
    {shown : Option String} {name : String} {written children : Written}
    {spelled : List Char → List Char}
    (htags : d.tagsAllowed = true) (hname : Writes written (d.spellText .tagName name))
    (hchildren : Writes children spelled) :
    Writes (d.layoutTag ⟨shown, written, some children⟩)
      (fun after => d.spellTag name (d.tagCloser :: spelled (d.spellClosingTag name after))) := by
  obtain ⟨text, rfl, htext⟩ := hname
  obtain ⟨body, rfl, hbody⟩ := hchildren
  refine ⟨d.tagOpener.toString ++ text ++ d.tagCloser.toString ++ body ++
    d.tagOpener.toString ++ d.tagSlash.toString ++ text ++ d.tagCloser.toString, ?_, ?_⟩
  · rw [layoutTag, if_pos htags]
    rfl
  · intro after
    simp [spellTag, spellClosingTag, ← htext, ← hbody]

theorem layoutSubmessage_writes
    {selector : String} {written body : Written} {spelled : List Char → List Char}
    (hselector : Writes written (d.spellText .word selector)) (hbody : Writes body spelled) :
    Writes (d.layoutSubmessage written body)
      (fun after =>
        d.spellText .word selector (' ' :: d.opener :: spelled (d.closer :: after))) := by
  obtain ⟨text, rfl, htext⟩ := hselector
  obtain ⟨inner, rfl, hinner⟩ := hbody
  refine ⟨text ++ " " ++ d.opener.toString ++ inner ++ d.closer.toString, rfl, ?_⟩
  intro after
  simp [← htext, ← hinner]

/-- Sub-messages one blank apart, with a blank before the first. -/
theorem blank_intercalate
    {texts : List String} (hne : texts ≠ []) :
    ' ' :: (String.intercalate " " texts).toList = texts.flatMap fun t => ' ' :: t.toList := by
  induction texts with
  | nil =>
      exact absurd rfl hne
  | cons t texts ih =>
      cases texts with
      | nil =>
          simp
      | cons u texts =>
          have hrest := ih (by simp)
          rw [String.intercalate_cons_cons, String.toList_append, String.toList_append,
            List.flatMap_cons, ← hrest]
          simp

theorem layoutPlaceholder_bare_writes
    {id : String} {written : Written}
    (hid : Writes written (d.spellText .word id)) :
    Writes (d.layoutPlaceholder ⟨some id, written, none, .absent, none⟩)
      (fun after => d.opener :: d.spellText .word id (d.closer :: after)) := by
  obtain ⟨text, rfl, htext⟩ := hid
  refine ⟨d.opener.toString ++ text ++ d.closer.toString, rfl, ?_⟩
  intro after
  simp [← htext]

/-- A placeholder is written from its id, its type and what follows the type. -/
theorem layoutPlaceholder_writes
    {id shown : String} {p : PlaceholderParts} {t : TypePart} (tail : List Char → List Char)
    (hid : Writes p.id (d.spellText .word id))
    (hparts : p.type = some t) (htype : Writes t.text (d.spellText .word shown))
    (htail : Writes (if t.isBranching then d.layoutBranching p t.isNumeric
      else d.layoutPlain p t.shown) tail) :
    Writes (d.layoutPlaceholder p)
      (fun after => d.opener :: d.spellText .word id (d.separator :: ' ' ::
        d.spellText .word shown (tail (d.closer :: after)))) := by
  obtain ⟨idText, hid, hidSpelled⟩ := hid
  obtain ⟨typeText, htype, htypeSpelled⟩ := htype
  obtain ⟨tailText, htail, htailSpelled⟩ := htail
  refine ⟨d.opener.toString ++ idText ++ d.separator.toString ++ " " ++ typeText ++ tailText ++
    d.closer.toString, ?_, ?_⟩
  · simp only [layoutPlaceholder, hid, hparts, htype, bind, Except.bind, pure, Except.pure]
    cases hbranching : t.isBranching with
    | true =>
        rw [hbranching, if_pos rfl] at htail
        rw [if_pos rfl, htail]
    | false =>
        rw [hbranching, if_neg (by simp)] at htail
        rw [if_neg (by simp), htail]
  · intro after
    simp [← hidSpelled, ← htypeSpelled, ← htailSpelled]

/-- A type that takes no sub-messages is followed by a format or by nothing. -/
theorem layoutPlain_writes
    {p : PlaceholderParts} {shown : Option String} {type : String} {format : Option Format}
    (hplain : d.isBranching type = false)
    (hformat : ∀ f, format = some f → f.WellFormed d type)
    (hparts : p.format = formatPart format) (hsubs : p.submessages = none) :
    Writes (d.layoutPlain p shown) (d.spellFormat format) := by
  cases format with
  | none =>
      refine ⟨"", ?_, fun after => rfl⟩
      simp [layoutPlain, hsubs, hparts, formatPart]
  | some f =>
      cases f with
      | offset n =>
          obtain ⟨_, hbranching, _⟩ := hformat _ rfl
          simp [hplain] at hbranching
      | text s =>
          obtain ⟨_, hs, _⟩ := hformat _ rfl
          refine ⟨d.separator.toString ++ " " ++ d.spell .body s, ?_, ?_⟩
          · simp [layoutPlain, hsubs, hparts, formatPart, hs.all_isBlank, bind, Except.bind, pure,
              Except.pure]
          · intro after
            simp [spell, spellText, spellFormat]

theorem layoutOffset_writes
    {type : String} {format : Option Format} (shown : Option String)
    (hbranching : d.isBranching type = true)
    (hformat : ∀ f, format = some f → f.WellFormed d type) :
    ∃ text, d.layoutOffset shown (d.isNumeric type) (formatPart format) = .ok text ∧
      ∀ after, ' ' :: (text.toList ++ after) = d.spellOffsetClause format (' ' :: after) := by
  cases format with
  | none => exact ⟨"", rfl, fun after => rfl⟩
  | some f =>
      cases f with
      | text s =>
          obtain ⟨hplain, _⟩ := hformat _ rfl
          simp [hbranching] at hplain
      | offset n =>
          obtain ⟨hnumeric, _, hbound⟩ := hformat _ rfl
          refine ⟨d.offsetKeyword ++ decimal n ++ " ", ?_, ?_⟩
          · simp [layoutOffset, formatPart, hnumeric, writeNumber_eq hbound, Except.map]
          · intro after
            simp [spellOffsetClause, spellOffset]

theorem layoutBranching_writes
    {parts : PlaceholderParts} {type : String} {format : Option Format}
    {texts : List String} {spelled : List Char → List Char}
    (hbranching : d.isBranching type = true)
    (hformat : ∀ f, format = some f → f.WellFormed d type)
    (hparts : parts.format = formatPart format)
    (hsubs : parts.submessages = some ⟨true, .ok (String.intercalate " " texts)⟩)
    (hne : texts ≠ [])
    (hspelled : ∀ after, (texts.flatMap fun t => ' ' :: t.toList) ++ after = spelled after) :
    Writes (d.layoutBranching parts (d.isNumeric type))
      (fun after => d.separator :: d.spellOffsetClause format (spelled after)) := by
  obtain ⟨offset, hoffset, hoffsetSpelled⟩ :=
    layoutOffset_writes parts.shownId hbranching hformat
  refine ⟨d.separator.toString ++ " " ++ offset ++ String.intercalate " " texts, ?_, ?_⟩
  · simp only [layoutBranching, hsubs, hparts, hoffset]
    rfl
  · intro after
    have hsubsSpelled :
        ' ' :: ((String.intercalate " " texts).toList ++ after) = spelled after := by
      rw [← List.cons_append, blank_intercalate hne, hspelled after]
    have hoffsetSpelled := hoffsetSpelled ((String.intercalate " " texts).toList ++ after)
    rw [hsubsSpelled] at hoffsetSpelled
    simp [← hoffsetSpelled]

mutual

theorem writeNode_writes
    (d : Dialect) (g : Guard) (owner : Option String) (node : Node)
    (h : node.WellFormed d owner) (hdepth : g.depth + node.depth ≤ g.limit) :
    Writes (d.writeNode g owner node) (node.spell d owner) := by
  match node with
  | .text s =>
      refine ⟨d.spell (modeOf owner) s, by rw [writeNode], ?_⟩
      intro after
      simp [Node.spell, spell, spellText]
  | .reference id =>
      obtain rfl : owner = some id := h
      refine ⟨d.reference.toString, by simp [writeNode, writeReference], ?_⟩
      intro after
      simp [Node.spell]
  | .placeholder id none format subs =>
      obtain ⟨hid, rfl, rfl⟩ := h
      have hwrites := layoutPlaceholder_bare_writes (d.writeToken_writes .placeholderId hid)
      simpa [writeNode, formatPart, Node.spell] using hwrites
  | .placeholder id (some type) format none =>
      obtain ⟨hid, htype, hplain, hformat⟩ := h
      rw [writeNode]
      refine (layoutPlaceholder_writes (d.spellFormat format)
        (d.writeToken_writes .placeholderId hid) rfl
        (d.writeToken_writes .placeholderType htype) ?_).congr ?_
      · simp only [typePart, hplain, Bool.false_eq_true, if_false]
        exact layoutPlain_writes hplain hformat rfl rfl
      · intro after
        rfl
  | .placeholder id (some type) format (some subs) =>
      obtain ⟨hid, htype, hbranching, hformat, hcomplete, _, hsubs⟩ := h
      obtain ⟨texts, htexts, hlength, hspelled⟩ :=
        writeSubmessages_writes d g (d.ownerOf id type) subs hsubs hdepth
      have hne : texts ≠ [] := by
        rintro rfl
        cases subs with
        | nil => simp [Submessages.isComplete] at hcomplete
        | cons entry subs => simp at hlength
      rw [writeNode]
      refine (layoutPlaceholder_writes
        (fun after => d.separator :: d.spellOffsetClause format
          (Submessages.spell d (d.ownerOf id type) subs after))
        (d.writeToken_writes .placeholderId hid) rfl
        (d.writeToken_writes .placeholderType htype) ?_).congr ?_
      · simp only [typePart, hbranching, if_true]
        refine layoutBranching_writes hbranching hformat rfl ?_ hne hspelled
        simp [hcomplete, htexts, Except.map]
      · intro after
        rfl
  | .tag name none =>
      obtain ⟨htags, hname⟩ := h
      rw [writeNode]
      refine (layoutTag_empty_writes htags (d.writeToken_writes .tagName hname)).congr ?_
      intro after
      rfl
  | .tag name (some []) =>
      obtain ⟨_, _, hne, _⟩ := h
      exact absurd rfl hne
  | .tag name (some (node :: rest)) =>
      obtain ⟨htags, hname, _, hchildren⟩ := h
      have hdepths : g.depth + 1 + Message.depth (node :: rest) ≤ g.limit := by
        simp only [Node.depth] at hdepth
        simp only [Message.depth]
        omega
      have hinner := writeNodes_writes d { g with depth := g.depth + 1 } none (node :: rest)
        hchildren hdepths
      have henter : g.enterBody = .ok { g with depth := g.depth + 1 } :=
        enterBody_eq (by omega)
      rw [writeNode, henter]
      rw [writeNodes] at hinner
      refine (layoutTag_writes htags (d.writeToken_writes .tagName hname) hinner).congr ?_
      intro after
      rfl

theorem writeNodes_writes
    (d : Dialect) (g : Guard) (owner : Option String) (m : List Node)
    (h : Message.WellFormed d owner m) (hdepth : g.depth + Message.depth m ≤ g.limit) :
    Writes (d.writeNodes g owner m) (Message.spell d owner m) := by
  match m with
  | [] =>
      refine ⟨"", by rw [writeNodes], ?_⟩
      intro after
      simp [Message.spell]
  | node :: rest =>
      obtain ⟨hnode, _, hrest⟩ := h
      have hdepths : g.depth + node.depth ≤ g.limit ∧ g.depth + Message.depth rest ≤ g.limit := by
        simp only [Message.depth] at hdepth
        omega
      obtain ⟨first, hfirst, hfirstSpelled⟩ := writeNode_writes d g owner node hnode hdepths.1
      obtain ⟨others, hothers, hothersSpelled⟩ := writeNodes_writes d g owner rest hrest hdepths.2
      refine ⟨first ++ others, ?_, ?_⟩
      · rw [writeNodes, hfirst, hothers]
        rfl
      · intro after
        rw [Message.spell, ← hothersSpelled, ← hfirstSpelled, String.toList_append,
          List.append_assoc]

theorem writeSubmessages_writes
    (d : Dialect) (g : Guard) (owner : Option String) (subs : List (String × List Node))
    (h : Submessages.WellFormed d owner subs)
    (hdepth : g.depth + Submessages.depth subs ≤ g.limit) :
    ∃ texts, d.writeSubmessages g owner subs = .ok texts ∧ texts.length = subs.length ∧
      ∀ after, (texts.flatMap fun t => ' ' :: t.toList) ++ after =
        Submessages.spell d owner subs after := by
  match subs with
  | [] =>
      exact ⟨[], by rw [writeSubmessages], rfl, fun after => by simp [Submessages.spell]⟩
  | (selector, body) :: rest =>
      obtain ⟨hselector, hbody, hrest⟩ := h
      have hdepths : g.depth + 1 + Message.depth body ≤ g.limit ∧
          g.depth + Submessages.depth rest ≤ g.limit := by
        simp only [Submessages.depth] at hdepth
        omega
      have hinner := writeNodes_writes d { g with depth := g.depth + 1 } owner body hbody hdepths.1
      obtain ⟨first, hfirst, hfirstSpelled⟩ :=
        layoutSubmessage_writes (d.writeToken_writes .selector hselector) hinner
      obtain ⟨others, hothers, hlength, hothersSpelled⟩ :=
        writeSubmessages_writes d g owner rest hrest hdepths.2
      have henter : g.enterBody = .ok { g with depth := g.depth + 1 } :=
        enterBody_eq (by omega)
      refine ⟨first :: others, ?_, by simp [hlength], ?_⟩
      · simp only [writeSubmessages, henter, hothers, bind, Except.bind, pure, Except.pure, hfirst]
      · intro after
        rw [Submessages.spell, List.flatMap_cons, List.append_assoc, hothersSpelled,
          List.cons_append, hfirstSpelled]

end

/-- A well-formed message within the nesting limit is written, and as it is spelled. -/
theorem serialize_eq
    {d : Dialect} {limit : Int} {m : Message}
    (h : Message.WellFormed d none m) (hdepth : (Message.depth m : Int) ≤ limit) :
    d.serialize limit m = .ok (String.ofList (Message.spell d none m [])) := by
  obtain ⟨text, htext, hspelled⟩ :=
    writeNodes_writes d { limit := limit } none m h (by simpa using hdepth)
  have hnil := hspelled []
  rw [List.append_nil] at hnil
  rw [serialize, htext, ← hnil, String.ofList_toList]

end Dialect

end MessageFormat
