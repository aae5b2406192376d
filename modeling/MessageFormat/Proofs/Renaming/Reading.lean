import MessageFormat.Proofs.Derivation.Refusals
import MessageFormat.Proofs.Renaming.Messages

/-!
# Reading commutes with renaming

If a text and a dialect are renamed together, every reader of a header gives what it gave, renamed,
and fails where it failed. So does each rule of the grammar (`Reads.rename`, `Fails.rename`): the
derivation in the renamed dialect follows the given one case by case.
-/

namespace MessageFormat

namespace Renaming

variable (s : Renaming)

/-- A place, renamed: what is left there is. -/
def place (p : Place) : Place :=
  { p with rest := p.rest.map s.char }

section Places

variable (p q : Place) (d : Dialect) (m : Mode)

@[simp] theorem place_left :
    (s.place p).left = p.left := by
  simp [place, Place.left]

@[simp] theorem place_peek :
    (s.place p).peek = p.peek.map s.char := by
  simp [place, Place.peek]

@[simp] theorem place_advance :
    (s.place p).advance = s.place p.advance := by
  simp [place, Place.advance]

@[simp] theorem place_skip :
    (s.place p).skip = s.place p.skip := by
  simp [place, Place.skip]

@[simp] theorem place_scan :
    (s.place p).scan (s.dialect d) m = (s.str (p.scan d m).1, s.place (p.scan d m).2) := by
  simp [place, Place.scan, scanned]

@[simp] theorem place_upTo
    (seam : Seam) :
    (s.place p).upTo (s.place q) seam = s.str (p.upTo q seam) := by
  simp [place, Place.upTo]

@[simp] theorem place_keep :
    (s.place p).keep (s.place q) = s.place (p.keep q) := by
  simp [place, Place.keep, Place.left]

@[simp] theorem map_char_eq_some
    {next : Option Char} {c : Char} :
    next.map s.char = some (s.char c) ↔ next = some c := by
  cases next <;> simp

end Places

/-- An expectation, renamed. -/
def expectation : Expectation → Expectation
  | .char c => .char (s.char c)
  | .either first second => .either (s.char first) (s.char second)
  | other => other

/-- A cause, renamed in all its texts. -/
def cause : Cause → Cause
  | .expected what => .expected (s.expectation what)
  | .strayClosingTag slash => .strayClosingTag (s.char slash)
  | .tagMismatch opened closed length => .tagMismatch (s.str opened) (s.str closed) length
  | .noProgress => .noProgress
  | .endOfText => .endOfText
  | .tooDeep limit => .tooDeep limit
  | .notNumber text => .notNumber (s.str text)
  | .tooManyDigits digits => .tooManyDigits digits

/-- A failure, renamed. -/
def failure (f : Failure) : Failure where
  cause := s.cause f.cause
  place := s.place f.place

/-- What is read of a header and the place after it, or a failure, renamed. -/
def answer {α : Type} (rename : α → α) :
    Except Failure (α × Place) → Except Failure (α × Place)
  | .ok (a, p) => .ok (rename a, s.place p)
  | .error f => .error (s.failure f)

/-- What encloses a body, renamed. -/
def enclosing : Enclosing → Enclosing
  | .nothing => .nothing
  | .placeholder id type => .placeholder (s.str id) (s.str type)
  | .tag name => .tag (s.str name)

/-- The start of a placeholder, renamed. -/
def head : Head → Head
  | .bare id => .bare (s.str id)
  | .typed id type => .typed (s.str id) (s.str type)
  | .formatted id type => .formatted (s.str id) (s.str type)

/-- The start of markup, renamed. -/
def tagHead : TagHead → TagHead
  | .text => .text
  | .closing name => .closing (s.str name)
  | .empty name => .empty (s.str name)
  | .opening name => .opening (s.str name)

section Headers

variable (d : Dialect) (p : Place)

theorem readWord_rename
    (what : Expectation) (hwhat : s.expectation what = what) :
    (s.dialect d).readWord what (s.place p) = s.answer s.str (d.readWord what p) := by
  simp only [Dialect.readWord, place_skip, place_scan, isEmpty_str]
  split
  · simp [Place.expected, answer, failure, cause, hwhat]
  · rfl

theorem readHead_rename :
    (s.dialect d).readHead (s.place p) = s.answer s.head (d.readHead p) := by
  simp only [Dialect.readHead, s.readWord_rename d p .placeholderId rfl]
  cases hid : d.readWord .placeholderId p with
  | error f => rfl
  | ok idResult =>
      obtain ⟨id, q⟩ := idResult
      simp only [answer, place_peek, place_advance, dialect_closer, dialect_separator,
        map_char_eq_some, ne_eq]
      split
      · rfl
      · split
        · rfl
        · simp only [s.readWord_rename d q.advance .type rfl]
          cases d.readWord .type q.advance with
          | error f => rfl
          | ok typeResult =>
              obtain ⟨type, r⟩ := typeResult
              simp only [answer, place_peek, place_advance, place_skip, isBranching_dialect,
                map_char_eq_some]
              split
              · split <;> rfl
              · split <;> rfl

/-- An offset stays as it is. -/
theorem offsetResult_rename
    (clause : OffsetClause) :
    Dialect.offsetResult (s.place p) (s.clause clause) =
      s.answer id (Dialect.offsetResult p clause) := by
  cases clause <;> rfl

theorem readOffsetClause_rename
    (type : String) (seam : Seam) :
    (s.dialect d).readOffsetClause (s.str type) (s.place p) seam =
      s.answer id (d.readOffsetClause type p seam) := by
  have hnumber : (s.dialect d).readOffsetNumber (s.place p) seam =
      s.answer id (d.readOffsetNumber p seam) := by
    simp only [Dialect.readOffsetNumber, ← offsetResult_rename, ← readOffset_map]
    rfl
  simp only [Dialect.readOffsetClause, isNumeric_dialect, hnumber]
  split
  · cases d.readOffsetNumber p seam with
    | error f => rfl
    | ok result =>
        obtain ⟨offset, q⟩ := result
        cases offset with
        | none => rfl
        | some n => simp [answer]
  · rfl

theorem readFormat_rename :
    (s.dialect d).readFormat (s.place p) = s.answer s.str (d.readFormat p) := by
  have htrim : ∀ text : String, String.ofList (trimBlanksEnd (s.str text).toList) =
      s.str (String.ofList (trimBlanksEnd text.toList)) := by
    intro text
    rw [toList_str, trimBlanksEnd_map, str_ofList]
  simp only [Dialect.readFormat, place_scan, htrim, isEmpty_str]
  split <;> rfl

/-- A closer and the place after it. -/
theorem readCloser_rename :
    (s.dialect d).readCloser (s.place p) =
      match d.readCloser p with
      | .ok q => .ok (s.place q)
      | .error f => .error (s.failure f) := by
  simp only [Dialect.readCloser, place_skip, place_peek, place_advance, dialect_closer,
    map_char_eq_some]
  split <;> rfl

theorem readSelector_rename :
    (s.dialect d).readSelector (s.place p) = s.answer s.str (d.readSelector p) := by
  simp only [Dialect.readSelector, place_scan, isEmpty_str, place_skip, place_peek, place_advance,
    dialect_opener, map_char_eq_some]
  split
  · rfl
  · split <;> rfl

theorem readClosingTag_rename
    (opened : String) (start : Place) :
    (s.dialect d).readClosingTag (s.str opened) (s.place start) (s.place p) =
      s.answer s.tagHead (d.readClosingTag opened start p) := by
  simp only [Dialect.readClosingTag, place_skip, place_scan, isEmpty_str, place_peek,
    place_advance, place_left, dialect_tagCloser, map_char_eq_some, str_inj, ne_eq]
  split
  · rfl
  · split
    · rfl
    · split <;> rfl

theorem readTagHead_rename
    (around : Enclosing) :
    (s.dialect d).readTagHead (s.enclosing around) (s.place p) =
      s.answer s.tagHead (d.readTagHead around p) := by
  simp only [Dialect.readTagHead, place_advance, place_peek, place_scan, place_skip, isEmpty_str,
    place_keep, dialect_tagSlash, dialect_tagCloser, map_char_eq_some]
  split
  · cases around with
    | nothing => rfl
    | placeholder id type => rfl
    | tag opened => exact s.readClosingTag_rename d p.advance.advance opened p
  · split
    · rfl
    · split
      · split <;> rfl
      · split <;> rfl

end Headers

/-- A context, renamed: its dialect and what encloses it. -/
def context (cx : Context) : Context :=
  { cx with dialect := s.dialect cx.dialect, enclosing := s.enclosing cx.enclosing }

section Contexts

variable (cx : Context)

@[simp] theorem context_dialect :
    (s.context cx).dialect = s.dialect cx.dialect := by
  rfl

@[simp] theorem context_referent :
    (s.context cx).referent = cx.referent.map s.str := by
  obtain ⟨d, limit, depth, around, seam⟩ := cx
  cases around with
  | nothing => rfl
  | tag name => rfl
  | placeholder id type =>
      simp only [Context.referent, context, enclosing, isNumeric_dialect]
      split <;> rfl

@[simp] theorem context_mode :
    (s.context cx).mode = cx.mode := by
  simp [Context.mode]

@[simp] theorem context_endsBody
    (c : Char) :
    (s.context cx).endsBody (s.char c) = cx.endsBody c := by
  have henclosing : ((s.context cx).enclosing != .nothing) = (cx.enclosing != .nothing) := by
    simp only [context]
    cases cx.enclosing <;> rfl
  simp only [Context.endsBody, henclosing, context_dialect, dialect_closer, char_beq]

theorem node_atom
    (c : Char) :
    s.node (.text c.toString) = .text (s.char c).toString := by
  simp [node, str]

@[simp] theorem context_atom?
    (c : Char) (next : Option Char) :
    (s.context cx).atom? (s.char c) (next.map s.char) = (cx.atom? c next).map s.node := by
  have hblank : (next.map s.char).any isBlank = next.any isBlank := by
    cases next <;> simp
  simp only [Context.atom?, context_dialect, dialect_closer, dialect_reference, dialect_tagsAllowed,
    dialect_tagOpener, char_inj, char_beq, context_referent, hblank]
  split
  · rw [Option.map_some, node_atom]
  · split
    · cases cx.referent <;> rfl
    · split
      · rw [Option.map_some, node_atom]
      · rfl

@[simp] theorem context_enter?
    (around : Enclosing) :
    (s.context cx).enter? (s.enclosing around) = (cx.enter? around).map s.context := by
  have hfull : (s.context cx).isFull = cx.isFull := rfl
  simp only [Context.enter?, hfull]
  split <;> rfl

end Contexts

/-- A body, renamed. -/
def body (b : Body) : Body where
  nodes := s.message b.nodes
  closed := b.closed

/-- A piece of a body, renamed. -/
def piece : Piece → Piece
  | .node n => .node (s.node n)
  | .closingTag name => .closingTag (s.str name)

/-- What is read by a rule, renamed. -/
def reading : Reading → Reading
  | .body b => .body (s.body b)
  | .piece first x => .piece (s.char first) (s.piece x)
  | .placeholder n => .placeholder (s.node n)
  | .submessages subs => .submessages (s.submessages subs)
  | .markup x => .markup (s.piece x)

/-- A rule, renamed: the character it starts on is. -/
def rule : Rule → Rule
  | .piece first => .piece (s.char first)
  | other => other

section Derivations

variable {s}

theorem answer_ok
    {α : Type} {rename : α → α} {given renamed : Except Failure (α × Place)}
    {a : α} {p : Place}
    (hrename : renamed = s.answer rename given) (h : given = .ok (a, p)) :
    renamed = .ok (rename a, s.place p) := by
  rw [hrename, h]
  rfl

theorem answer_error
    {α : Type} {rename : α → α} {given renamed : Except Failure (α × Place)} {f : Failure}
    (hrename : renamed = s.answer rename given) (h : given = .error f) :
    renamed = .error (s.failure f) := by
  rw [hrename, h]
  rfl

variable {cx inner : Context} {p : Place} {c : Char}

theorem peek_rename
    (h : p.peek = some c) :
    (s.place p).peek = some (s.char c) := by
  rw [place_peek, h, Option.map_some]

theorem peek_none_rename
    (h : p.peek = none) :
    (s.place p).peek = none := by
  rw [place_peek, h, Option.map_none]

/-- Sub-messages end at a renamed place exactly if they end at the given one. -/
theorem submessagesEnd_rename :
    ((s.place p).peek = none ∨ (s.place p).peek = some (s.context cx).dialect.closer)
      ↔
    (p.peek = none ∨ p.peek = some cx.dialect.closer) := by
  simp [context]

theorem atom?_rename
    {n : Node} (h : cx.atom? c p.advance.peek = some n) :
    (s.context cx).atom? (s.char c) (s.place p).advance.peek = some (s.node n) := by
  rw [place_advance, place_peek, context_atom?, h, Option.map_some]

theorem atom?_none_rename
    (h : cx.atom? c p.advance.peek = none) :
    (s.context cx).atom? (s.char c) (s.place p).advance.peek = none := by
  rw [place_advance, place_peek, context_atom?, h, Option.map_none]

theorem enter?_rename
    {around : Enclosing} (h : cx.enter? around = some inner) :
    (s.context cx).enter? (s.enclosing around) = some (s.context inner) := by
  rw [context_enter?, h, Option.map_some]

theorem enter?_none_rename
    {around : Enclosing} (h : cx.enter? around = none) :
    (s.context cx).enter? (s.enclosing around) = none := by
  rw [context_enter?, h, Option.map_none]

theorem readCloser_ok_rename
    {d : Dialect} {q : Place} (h : d.readCloser p = .ok q) :
    (s.dialect d).readCloser (s.place p) = .ok (s.place q) := by
  rw [readCloser_rename, h]

theorem readCloser_error_rename
    {d : Dialect} {f : Failure} (h : d.readCloser p = .error f) :
    (s.dialect d).readCloser (s.place p) = .error (s.failure f) := by
  rw [readCloser_rename, h]

end Derivations

end Renaming

namespace Context

open Renaming

/-- What is read from a text is read, renamed, from the renamed text. -/
theorem Reads.rename
    {cx : Context} {p q : Place} {x : Reading}
    (s : Renaming) (h : Reads cx p x q) :
    Reads (s.context cx) (s.place p) (s.reading x) (s.place q) := by
  induction h with
  | bodyAtEnd hpeek => exact .bodyAtEnd (peek_none_rename hpeek)
  | bodyEnded hpeek hends =>
      exact .bodyEnded (peek_rename hpeek) ((s.context_endsBody _ _).trans hends)
  | bodyClosed hpeek hends hpiece ih =>
      exact .bodyClosed (peek_rename hpeek) ((s.context_endsBody _ _).trans hends) ih
  | @bodyNode cx p q r c node body hpeek hends hpiece hbody ihpiece ihbody =>
      have hbefore : s.body (body.before node) = (s.body body).before (s.node node) := by
        simp [Body.before, Renaming.body, node_before]
      rw [Renaming.reading, hbefore]
      exact .bodyNode (peek_rename hpeek) ((s.context_endsBody _ _).trans hends) ihpiece ihbody
  | @atom cx p c node hatom =>
      rw [← place_advance]
      exact .atom (atom?_rename hatom)
  | opened hatom hopener hnode ih =>
      rw [← place_advance] at ih
      exact .opened (atom?_none_rename hatom) (congrArg s.char hopener) ih
  | marked hatom htags hopener hmarkup ih =>
      exact .marked (atom?_none_rename hatom) htags (congrArg s.char hopener) ih
  | @text cx p c hraw =>
      have hstops : (s.context cx).dialect.stops (s.context cx).mode (s.char c) = false := by
        rw [context_dialect, context_mode, stops_dialect, hraw]
      -- The rule names the text that it scans, which is the renamed one after the step only.
      have htext := @Reads.text (s.context cx) (s.place p) (s.char c) hstops
      rw [context_dialect, context_mode, place_scan] at htext
      exact htext
  | bare hhead => exact .bare (answer_ok (s.readHead_rename _ _) hhead)
  | typed hhead => exact .typed (answer_ok (s.readHead_rename _ _) hhead)
  | formatted hhead hoffset hplain hformat hcloser =>
      exact .formatted (answer_ok (s.readHead_rename _ _) hhead)
        (answer_ok (s.readOffsetClause_rename _ _ _ _) hoffset)
        ((s.isBranching_dialect _ _).trans hplain)
        (answer_ok (s.readFormat_rename _ _) hformat)
        (readCloser_ok_rename hcloser)
  | @branching cx inner p q r t u id type offset subs hhead hoffset hbranching henter hsubs
      hcomplete hcloser ih =>
      -- An offset is a number, which renaming keeps.
      have hoffset' : (offset.map Format.offset).map s.format = offset.map Format.offset := by
        cases offset <;> rfl
      rw [Renaming.reading, node, hoffset']
      exact .branching (answer_ok (s.readHead_rename _ _) hhead)
        (answer_ok (s.readOffsetClause_rename _ _ _ _) hoffset)
        ((s.isBranching_dialect _ _).trans hbranching) (enter?_rename henter) ih
        ((s.isComplete_submessages _).trans hcomplete) (readCloser_ok_rename hcloser)
  | entriesEnded hpeek => exact .entriesEnded (submessagesEnd_rename.mpr hpeek)
  | @entry cx p q r t selector body subs hpeek hselector hbody hcloser hsubs ihbody ihsubs =>
      rw [← place_skip, ← place_advance] at ihsubs
      rw [Renaming.reading, submessages_before]
      exact .entry (submessagesEnd_rename.not.mpr hpeek)
        (answer_ok (s.readSelector_rename _ _) hselector) ihbody (peek_rename hcloser) ihsubs
  | @keptMarkup cx p q hhead =>
      have hkept := @Reads.keptMarkup (s.context cx) (s.place p) (s.place q)
        (answer_ok (s.readTagHead_rename _ _ _) hhead)
      rw [place_upTo] at hkept
      exact hkept
  | closingTag hhead => exact .closingTag (answer_ok (s.readTagHead_rename _ _ _) hhead)
  | emptyTag hhead => exact .emptyTag (answer_ok (s.readTagHead_rename _ _ _) hhead)
  | @tag cx inner p q r name body hhead henter hbody hclosed ih =>
      have hchildren : s.node (.tag name (if body.nodes.isEmpty then none else some body.nodes)) =
          .tag (s.str name)
            (if (s.body body).nodes.isEmpty then none else some (s.body body).nodes) := by
        simp only [Renaming.body, isEmpty_message]
        split <;> rfl
      rw [Renaming.reading, piece, hchildren]
      exact .tag (answer_ok (s.readTagHead_rename _ _ _) hhead) (enter?_rename henter) ih hclosed

/-- Where a text is refused, the renamed text is, for the renamed failure. -/
theorem Fails.rename
    {cx : Context} {p : Place} {x : Rule} {f : Failure}
    (s : Renaming) (h : Fails cx p x f) :
    Fails (s.context cx) (s.place p) (s.rule x) (s.failure f) := by
  induction h with
  | piece hpeek hends hpiece ih =>
      exact .piece (peek_rename hpeek) ((s.context_endsBody _ _).trans hends) ih
  | rest hpeek hends hpiece hrest ih =>
      exact .rest (peek_rename hpeek) ((s.context_endsBody _ _).trans hends) (hpiece.rename s) ih
  | opened hatom hopener hnode ih =>
      rw [← place_advance] at ih
      exact .opened (atom?_none_rename hatom) (congrArg s.char hopener) ih
  | marked hatom htags hopener hmarkup ih =>
      exact .marked (atom?_none_rename hatom) htags (congrArg s.char hopener) ih
  | head hhead => exact .head (answer_error (s.readHead_rename _ _) hhead)
  | offset hhead hoffset =>
      exact .offset (answer_ok (s.readHead_rename _ _) hhead)
        (answer_error (s.readOffsetClause_rename _ _ _ _) hoffset)
  | format hhead hoffset hplain hformat =>
      exact .format (answer_ok (s.readHead_rename _ _) hhead)
        (answer_ok (s.readOffsetClause_rename _ _ _ _) hoffset)
        ((s.isBranching_dialect _ _).trans hplain)
        (answer_error (s.readFormat_rename _ _) hformat)
  | formatCloser hhead hoffset hplain hformat hcloser =>
      exact .formatCloser (answer_ok (s.readHead_rename _ _) hhead)
        (answer_ok (s.readOffsetClause_rename _ _ _ _) hoffset)
        ((s.isBranching_dialect _ _).trans hplain)
        (answer_ok (s.readFormat_rename _ _) hformat)
        (readCloser_error_rename hcloser)
  | placeholderTooDeep hhead hoffset hbranching henter =>
      exact .placeholderTooDeep (answer_ok (s.readHead_rename _ _) hhead)
        (answer_ok (s.readOffsetClause_rename _ _ _ _) hoffset)
        ((s.isBranching_dialect _ _).trans hbranching) (enter?_none_rename henter)
  | submessages hhead hoffset hbranching henter hsubs ih =>
      exact .submessages (answer_ok (s.readHead_rename _ _) hhead)
        (answer_ok (s.readOffsetClause_rename _ _ _ _) hoffset)
        ((s.isBranching_dialect _ _).trans hbranching) (enter?_rename henter) ih
  | incomplete hhead hoffset hbranching henter hsubs hincomplete =>
      exact .incomplete (answer_ok (s.readHead_rename _ _) hhead)
        (answer_ok (s.readOffsetClause_rename _ _ _ _) hoffset)
        ((s.isBranching_dialect _ _).trans hbranching) (enter?_rename henter) (hsubs.rename s)
        ((s.isComplete_submessages _).trans hincomplete)
  | branchingCloser hhead hoffset hbranching henter hsubs hcomplete hcloser =>
      exact .branchingCloser (answer_ok (s.readHead_rename _ _) hhead)
        (answer_ok (s.readOffsetClause_rename _ _ _ _) hoffset)
        ((s.isBranching_dialect _ _).trans hbranching) (enter?_rename henter) (hsubs.rename s)
        ((s.isComplete_submessages _).trans hcomplete) (readCloser_error_rename hcloser)
  | selector hpeek hselector =>
      exact .selector (submessagesEnd_rename.not.mpr hpeek)
        (answer_error (s.readSelector_rename _ _) hselector)
  | entryBody hpeek hselector hbody ih =>
      exact .entryBody (submessagesEnd_rename.not.mpr hpeek)
        (answer_ok (s.readSelector_rename _ _) hselector) ih
  | @entryCloser cx p q r selector body hpeek hselector hbody hcloser =>
      have hcloser' : (s.place r).peek ≠ some (s.context cx).dialect.closer := by
        simpa using hcloser
      exact .entryCloser (submessagesEnd_rename.not.mpr hpeek)
        (answer_ok (s.readSelector_rename _ _) hselector) (hbody.rename s) hcloser'
  | laterEntry hpeek hselector hbody hcloser hsubs ih =>
      rw [← place_skip, ← place_advance] at ih
      exact .laterEntry (submessagesEnd_rename.not.mpr hpeek)
        (answer_ok (s.readSelector_rename _ _) hselector) (hbody.rename s) (peek_rename hcloser) ih
  | tagHead hhead => exact .tagHead (answer_error (s.readTagHead_rename _ _ _) hhead)
  | tagTooDeep hhead henter =>
      exact .tagTooDeep (answer_ok (s.readTagHead_rename _ _ _) hhead) (enter?_none_rename henter)
  | tagBody hhead henter hbody ih =>
      exact .tagBody (answer_ok (s.readTagHead_rename _ _ _) hhead) (enter?_rename henter) ih
  | tagUnclosed hhead henter hbody hopen =>
      exact .tagUnclosed (answer_ok (s.readTagHead_rename _ _ _) hhead) (enter?_rename henter)
        (hbody.rename s) hopen

end Context

end MessageFormat
