import MessageFormat.Proofs.Derivation.Agreement
import MessageFormat.Proofs.Derivation.Headers
import MessageFormat.Proofs.Numbers

/-!
# How reading fails

Reading a text from its start fails in a few ways only (`Reader.Tells`): the text is too large,
something else should have come next, a body lies too deep, a closing tag stands where no tag or
another tag is open, or the number of an offset has too many digits. The last fault is told only of
a text that holds such an offset, and every fault that has a place has it inside of the text.

The faults for which there is no such way have no derivation at all: a character is always there
when it is looked at, every piece takes at least one character, and what is read as a number is one,
because digits reach across the end of the text only where reading begins at a negative position.
-/

namespace MessageFormat

/-- A text holds the offset keyword, blanks, an optional sign and so many digits, which are too
many. -/
def HoldsLongOffset (d : Dialect) (text : List Char) (digits : Nat) : Prop :=
  ∃ before blanks sign number after : List Char,
    text = before ++ (d.offsetKeyword.toList ++ (blanks ++ (sign ++ (number ++ after)))) ∧
      blanks.all isBlank = true ∧
      sign ∈ [[], ['-'], ['+']] ∧
      number.all Char.isDigit = true ∧
      number.length = digits ∧
      maxDigits < digits

theorem HoldsLongOffset.of_suffix
    {d : Dialect} {text text' : List Char} {digits : Nat}
    (h : HoldsLongOffset d text digits) (hsuffix : text <:+ text') :
    HoldsLongOffset d text' digits := by
  obtain ⟨before', rfl⟩ := hsuffix
  obtain ⟨before, blanks, sign, number, after, rfl, hrest⟩ := h
  exact ⟨before' ++ before, blanks, sign, number, after, by simp, hrest⟩

/-- A cause that reading from a place can have, with the characters left at the fault. -/
inductive Cause.Documented (cx : Context) (p : Place) (left : Nat) : Cause → Prop
  | expected (what : Expectation) : Documented cx p left (.expected what)
  | strayClosingTag (slash : Char) : Documented cx p left (.strayClosingTag slash)
  | tagMismatch {opened closed : String} {length : Nat}
      (hlength : length ≤ left) :
      Documented cx p left (.tagMismatch opened closed length)
  | tooDeep : Documented cx p left (.tooDeep cx.limit)
  | tooManyDigits {digits : Nat}
      (hholds : HoldsLongOffset cx.dialect p.rest digits) :
      Documented cx p left (.tooManyDigits digits)

theorem Cause.Documented.of_follows
    {cx : Context} {p q : Place} {left : Nat} {cause : Cause}
    (h : cause.Documented cx q left) (hq : q.Follows p) :
    cause.Documented cx p left := by
  cases h with
  | expected what => exact .expected what
  | strayClosingTag slash => exact .strayClosingTag slash
  | tagMismatch hlength => exact .tagMismatch hlength
  | tooDeep => exact .tooDeep
  | tooManyDigits hholds => exact .tooManyDigits (hholds.of_suffix hq)

/-- A body inside has the dialect and the limit of the body around it. -/
theorem Cause.Documented.of_enter
    {cx inner : Context} {enclosing : Enclosing} {p : Place} {left : Nat} {cause : Cause}
    (h : cause.Documented inner p left) (henter : cx.enter? enclosing = some inner) :
    cause.Documented cx p left := by
  obtain ⟨_, rfl⟩ := Context.enter?_eq_some henter
  cases h with
  | expected what => exact .expected what
  | strayClosingTag slash => exact .strayClosingTag slash
  | tagMismatch hlength => exact .tagMismatch hlength
  | tooDeep => exact .tooDeep
  | tooManyDigits hholds => exact .tooManyDigits hholds

/-- A failure of reading from a place: it lies further on, and has one of the causes. -/
structure Failure.Documented (cx : Context) (p : Place) (f : Failure) : Prop where
  place : f.place.Follows p
  cause : f.cause.Documented cx p f.place.left

namespace Failure.Documented

variable {cx : Context} {p q : Place} {f : Failure}

theorem expected
    (what : Expectation) (h : q.Follows p) :
    Failure.Documented cx p ⟨.expected what, q⟩ :=
  ⟨h, .expected what⟩

/-- A failure further on is a failure from here. -/
theorem of_follows
    (h : f.Documented cx q) (hq : q.Follows p) :
    f.Documented cx p :=
  ⟨h.place.trans hq, h.cause.of_follows hq⟩

theorem of_enter
    {inner : Context} {enclosing : Enclosing}
    (h : f.Documented inner p) (henter : cx.enter? enclosing = some inner) :
    f.Documented cx p :=
  ⟨h.place, h.cause.of_enter henter⟩

end Failure.Documented

theorem Failure.Expects.documented
    {p : Place} {f : Failure} (h : f.Expects p) (cx : Context) :
    f.Documented cx p := by
  obtain ⟨what, q, hq, rfl⟩ := h
  exact .expected what hq

namespace Dialect

variable {cx : Context} {p : Place} {f : Failure}

theorem readOffsetNumber_documented
    {d : Dialect} (hd : cx.dialect = d)
    (h : d.readOffsetNumber p = .error f) :
    f.Documented cx p := by
  subst hd
  unfold readOffsetNumber readOffset at h
  rw [Seam.near_none] at h
  split at h
  · next hkeyword =>
      obtain ⟨rest, hrest⟩ := List.isPrefixOf_iff_prefix.mp hkeyword
      rw [← hrest, List.drop_left] at h
      obtain ⟨cut⟩ := NumberCut.nonempty_numberCut rest
      have htext : p.rest = cx.dialect.offsetKeyword.toList ++
          (cut.blanks ++ (cut.sign ++ (cut.digits ++ cut.after))) :=
        hrest.symm.trans (congrArg (cx.dialect.offsetKeyword.toList ++ ·) cut.text_eq)
      rw [cut.readNumber_eq] at h
      split at h
      · next hdigits =>
          cases h
          refine .expected .number ⟨cx.dialect.offsetKeyword.toList ++ cut.blanks, ?_⟩
          simp [htext, hdigits]
      · split at h
        · next hlength =>
            cases h
            refine ⟨⟨cx.dialect.offsetKeyword.toList ++ (cut.blanks ++ (cut.sign ++ cut.digits)),
              by simp [htext]⟩, ?_⟩
            exact .tooManyDigits ⟨[], cut.blanks, cut.sign, cut.digits, cut.after, htext,
              cut.blanks_run, cut.sign_mem, cut.digits_run, rfl, hlength⟩
        · cases h
  · cases h

theorem readOffsetClause_documented
    {type : String}
    (h : cx.dialect.readOffsetClause type p = .error f) :
    f.Documented cx p := by
  unfold readOffsetClause at h
  split at h
  · split at h
    · next hnumber =>
        cases h
        exact readOffsetNumber_documented rfl hnumber
    · cases h
    · cases h
  · cases h

theorem readClosingTag_documented
    {d : Dialect} {opened : String} {start : Place}
    (h : d.readClosingTag opened start p = .error f) (hp : p.Follows start) :
    f.Documented cx start := by
  simp only [readClosingTag, Place.expected] at h
  split at h
  · cases h
  · split at h
    · cases h
      exact .expected _ (((Place.skip_follows _).trans
        ((p.skip.scan_follows d .tagName).trans p.skip_follows)).trans hp)
    · split at h <;> cases h
      exact ⟨Place.Follows.refl start, .tagMismatch (Nat.sub_le _ _)⟩

theorem readTagHead_documented
    {d : Dialect} {enclosing : Enclosing}
    (h : d.readTagHead enclosing p = .error f) :
    f.Documented cx p := by
  simp only [readTagHead] at h
  split at h
  · split at h
    · exact readClosingTag_documented h (p.advance.advance_follows.trans p.advance_follows)
    · cases h
      exact ⟨p.advance_follows, .strayClosingTag _⟩
  · split at h
    · cases h
    · split at h
      · split at h <;> cases h
      · split at h <;> cases h

end Dialect

namespace Context

theorem Reads.piece_follows
    {cx : Context} {p q : Place} {c : Char} {piece : Piece}
    (h : Reads cx p (.piece c piece) q) (hpeek : p.peek = some c) :
    q.Follows p :=
  (h.follows hpeek).trans p.advance_follows

/-- Every failure of reading from the start of a text is one of those that are documented. -/
theorem Fails.documented
    {cx : Context} {p : Place} {rule : Rule} {f : Failure}
    (h : Fails cx p rule f) (hseam : cx.seam = none) :
    f.Documented cx p := by
  induction h with
  | piece hpeek hends hpiece ih => exact ih hseam
  | rest hpeek hends hpiece hrest ih =>
      exact (ih hseam).of_follows (hpiece.piece_follows hpeek)
  | @opened cx p c f hatom hopener hnode ih =>
      exact (ih hseam).of_follows p.advance_follows
  | marked hatom htags hopener hmarkup ih => exact ih hseam
  | head hhead => exact (Dialect.readHead_expects hhead).documented _
  | offset hhead hoffset =>
      rw [hseam] at hoffset
      exact (Dialect.readOffsetClause_documented hoffset).of_follows
        (Dialect.readHead_follows hhead)
  | format hhead hoffset hplain hformat =>
      exact ((Dialect.readFormat_expects hformat).documented _).of_follows
        ((Dialect.readOffsetClause_follows hoffset).trans (Dialect.readHead_follows hhead))
  | formatCloser hhead hoffset hplain hformat hcloser =>
      exact ((Dialect.readCloser_expects hcloser).documented _).of_follows
        ((Dialect.readFormat_follows hformat).trans
          ((Dialect.readOffsetClause_follows hoffset).trans (Dialect.readHead_follows hhead)))
  | placeholderTooDeep hhead hoffset hbranching henter =>
      exact ⟨(Dialect.readOffsetClause_follows hoffset).trans (Dialect.readHead_follows hhead),
        .tooDeep⟩
  | submessages hhead hoffset hbranching henter hsubs ih =>
      have hinner := ih (by
        obtain ⟨_, rfl⟩ := enter?_eq_some henter
        exact hseam)
      exact (hinner.of_enter henter).of_follows
        ((Dialect.readOffsetClause_follows hoffset).trans (Dialect.readHead_follows hhead))
  | incomplete hhead hoffset hbranching henter hsubs hincomplete =>
      exact .expected _ (hsubs.follows.trans
        ((Dialect.readOffsetClause_follows hoffset).trans (Dialect.readHead_follows hhead)))
  | branchingCloser hhead hoffset hbranching henter hsubs hcomplete hcloser =>
      exact ((Dialect.readCloser_expects hcloser).documented _).of_follows (hsubs.follows.trans
        ((Dialect.readOffsetClause_follows hoffset).trans (Dialect.readHead_follows hhead)))
  | selector hpeek hselector => exact (Dialect.readSelector_expects hselector).documented _
  | entryBody hpeek hselector hbody ih =>
      exact (ih hseam).of_follows (Dialect.readSelector_follows hselector)
  | entryCloser hpeek hselector hbody hcloser =>
      exact .expected _ (hbody.follows.trans (Dialect.readSelector_follows hselector))
  | @laterEntry cx p q r selector body f hpeek hselector hbody hcloser hsubs ih =>
      exact (ih hseam).of_follows ((r.advance.skip_follows.trans r.advance_follows).trans
        (hbody.follows.trans (Dialect.readSelector_follows hselector)))
  | tagHead hhead => exact Dialect.readTagHead_documented hhead
  | @tagTooDeep cx p q name hhead henter =>
      exact ⟨(Dialect.readTagHead_follows hhead).trans p.advance_follows, .tooDeep⟩
  | @tagBody cx inner p q name f hhead henter hbody ih =>
      have hinner := ih (by
        obtain ⟨_, rfl⟩ := enter?_eq_some henter
        exact hseam)
      exact (hinner.of_enter henter).of_follows
        ((Dialect.readTagHead_follows hhead).trans p.advance_follows)
  | @tagUnclosed cx inner p q r name body hhead henter hbody hopen =>
      exact .expected _ (hbody.follows.trans
        ((Dialect.readTagHead_follows hhead).trans p.advance_follows))

end Context

/-- A span lies inside of a text of this size, and its line and column are counted from 1. -/
structure Span.Within (span : Span) (size : Nat) : Prop where
  start_nonneg : 0 ≤ span.start
  start_le_stop : span.start ≤ span.stop
  stop_le : span.stop ≤ size
  line_pos : 1 ≤ span.line
  column_pos : 1 ≤ span.column

theorem lastLine_length_le
    (text : List Char) :
    (lastLine text).length ≤ text.length := by
  have h := (List.takeWhile_sublist (p := (· ≠ '\n')) (l := text.reverse)).length_le
  simpa [lastLine] using h

/-- A cursor inside of the text has a column, counted from 1. -/
theorem Cursor.lineColumn_pos
    {c : Cursor} (hstart : 0 ≤ c.pos) (hstop : c.pos ≤ c.length) :
    1 ≤ c.lineColumn.1 ∧ 1 ≤ c.lineColumn.2 := by
  have hbound : bound c.source.toList.length c.pos = c.pos.toNat := by
    unfold bound
    rw [if_neg (by omega)]
    unfold length at hstop
    omega
  have hlength : (slice c.source.toList 0 c.pos).length = c.pos.toNat := by
    unfold slice length at *
    simp only [hbound]
    simp [bound]
    omega
  have hline := lastLine_length_le (slice c.source.toList 0 c.pos)
  simp only [lineColumn]
  constructor
  · omega
  · omega

/-- A cursor inside of the text has a span up to any later place in it. -/
theorem Cursor.span_within
    {c : Cursor} (hstart : 0 ≤ c.pos) (hstop : c.pos ≤ c.length)
    (stop : Option Int) (hle : ∀ i, stop = some i → i ≤ c.length) :
    ∃ span, c.span stop = .ok span ∧ span.Within c.source.toList.length := by
  obtain ⟨hline, hcolumn⟩ := c.lineColumn_pos hstart hstop
  have hdefault : (if c.isEof then c.pos else c.pos + 1) ≤ c.length := by
    split
    · exact hstop
    · next hend =>
        simp only [isEof, decide_eq_true_eq] at hend
        omega
  have hget : stop.getD (if c.isEof then c.pos else c.pos + 1) ≤ c.length := by
    cases stop with
    | none => exact hdefault
    | some i => exact hle i rfl
  refine ⟨⟨c.pos, max (stop.getD (if c.isEof then c.pos else c.pos + 1)) c.pos,
    c.lineColumn.1, c.lineColumn.2⟩, ?_, ?_⟩
  · simp only [span, Span.make]
    rw [if_neg (by omega), if_neg (by omega), if_neg (by omega), if_neg (by omega)]
  · unfold length at hget hstop
    constructor
    · exact hstart
    · exact Int.le_max_right _ _
    · exact Int.max_le.mpr ⟨hget, hstop⟩
    · exact hline
    · exact hcolumn

/-- The stretch of a whole text. -/
def Stretch.whole (text : String) : Stretch :=
  ⟨⟨text, 0⟩, text.toList.length⟩

/-- A diagnostic about a place in the text is reported with a span inside of it. -/
theorem Stretch.report_whole
    (text : String) (kind : Report.Kind) {left : Nat} (length : Option Nat)
    (diagnostic : Span → Diagnostic)
    (hleft : left ≤ text.toList.length) (hlength : ∀ n, length = some n → n ≤ left) :
    ∃ span : Span, span.Within text.toList.length ∧
      (whole text).report kind left length diagnostic =
        .reported (Report.ofDiagnostic kind (diagnostic span) text) := by
  have hstart : 0 ≤ ((whole text).cursorAt left).pos := by
    simp only [whole, cursorAt]
    omega
  have hstop : ((whole text).cursorAt left).pos ≤ ((whole text).cursorAt left).length := by
    simp only [whole, cursorAt, Cursor.length]
    omega
  have hle : ∀ i, (length.map fun n => ((whole text).cursorAt left).pos + n) = some i →
      i ≤ ((whole text).cursorAt left).length := by
    intro i hi
    cases length with
    | none =>
        cases hi
    | some n =>
        have hn := hlength n rfl
        cases hi
        simp only [whole, cursorAt, Cursor.length]
        omega
  obtain ⟨span, hspan, hwithin⟩ := Cursor.span_within hstart hstop _ hle
  refine ⟨span, hwithin, ?_⟩
  simp only [report, hspan]
  rfl

/-- What a reader tells of a text that it does not read. -/
inductive Reader.Tells (r : Reader) (text : String) : Fault → Prop
  | tooLarge
      (hsize : r.Refuses text.toList) :
      Tells r text
        (.invalidValue (Diagnostic.sourceTooLarge text.toList.length r.maxSize).message)
  | expectedToken
      (what : Expectation) (found : Option String) {span : Span}
      (hspan : span.Within text.toList.length) :
      Tells r text (.reported (Report.ofDiagnostic .expectedToken
        (Diagnostic.expectedToken what.describe found span) text))
  | strayClosingTag
      (slash : Char) {span : Span}
      (hspan : span.Within text.toList.length) :
      Tells r text (.reported (Report.ofDiagnostic .unexpectedCharacter
        (Diagnostic.unexpectedCharacter slash.toString span) text))
  | tagMismatch
      (opened closed : String) {span : Span}
      (hspan : span.Within text.toList.length) :
      Tells r text (.reported (Report.ofDiagnostic .unexpectedCharacter
        (Diagnostic.tagMismatch opened closed span) text))
  | tooDeep :
      Tells r text (.reported (Report.tooDeep r.depthLimit))
  | tooManyDigits
      {digits : Nat}
      (hholds : HoldsLongOffset r.dialect text.toList digits) :
      Tells r text (.invalidValue (tooManyDigitsMessage digits))

theorem Reader.tells_account
    {r : Reader} {text : String} {f : Failure}
    (h : f.Documented r.context ⟨text.toList, []⟩) :
    r.Tells text ((Stretch.whole text).account f) := by
  obtain ⟨cause, place⟩ := f
  obtain ⟨hplace, hcause⟩ := h
  have hleft : place.left ≤ text.toList.length := hplace.left_le
  unfold Stretch.account
  cases hcause with
  | expected what =>
      obtain ⟨span, hspan, hreport⟩ := Stretch.report_whole text .expectedToken none
        (Diagnostic.expectedToken what.describe (place.peek.map Char.toString)) hleft (by simp)
      simp only [hreport]
      exact .expectedToken what _ hspan
  | strayClosingTag slash =>
      obtain ⟨span, hspan, hreport⟩ := Stretch.report_whole text .unexpectedCharacter none
        (Diagnostic.unexpectedCharacter slash.toString) hleft (by simp)
      simp only [hreport]
      exact .strayClosingTag slash hspan
  | @tagMismatch opened closed length hlength =>
      obtain ⟨span, hspan, hreport⟩ := Stretch.report_whole text .unexpectedCharacter
        (some length) (Diagnostic.tagMismatch opened closed) hleft (by simpa using hlength)
      simp only [hreport]
      exact .tagMismatch opened closed hspan
  | tooDeep => exact .tooDeep
  | tooManyDigits hholds => exact .tooManyDigits hholds

theorem Reader.tells_of_error
    {r : Reader} {text : String} {fault : ReadFault}
    (h : r.read text.toList = .error fault) :
    r.Tells text (fault.toFault (Stretch.whole text)) := by
  rcases Reader.read_eq_error h with ⟨hsize, rfl⟩ | ⟨f, hfails, rfl⟩
  · exact .tooLarge hsize
  · exact Reader.tells_account (hfails.documented rfl)

/-- A fault of reading itself: a character past the end, a value used against its type, a node that
is none, numbers that are no span, or a character for which there is no rule. -/
def Fault.Internal : Fault → Prop
  | .endOfText _ | .misuse _ | .unreachable _ => True
  | .invalidValue message => ∃ fault : Span.Fault, message = fault.message
  | .reported report => report.diagnostic.map Diagnostic.code = some .noProgress

theorem prefix_toList_append
    {start : List Char} {first : String}
    (h : start <+: first.toList) (rest : String) :
    start <+: (first ++ rest).toList := by
  rw [String.toList_append]
  exact h.trans (List.prefix_append _ _)

/-- Two texts that start differently are not equal. -/
theorem ne_of_prefix
    {s t : String} {first second : List Char}
    (hs : first <+: s.toList) (ht : second <+: t.toList)
    (hlength : first.length = second.length) (hne : first ≠ second) :
    s ≠ t := by
  rintro rfl
  have hstart := List.prefix_of_prefix_length_le hs ht (Nat.le_of_eq hlength)
  exact hne (hstart.eq_of_length hlength)

theorem Span.Fault.prefix_message
    (fault : Span.Fault) :
    "SourceS".toList <+: fault.message.toList := by
  cases fault <;> unfold Span.Fault.message <;> repeat first | decide | apply prefix_toList_append

theorem prefix_sourceTooLarge
    (size limit : Int) :
    "Source ".toList <+: (Diagnostic.sourceTooLarge size limit).message.toList := by
  unfold Diagnostic.sourceTooLarge
  repeat first | decide | apply prefix_toList_append

theorem prefix_tooManyDigitsMessage
    (digits : Nat) :
    "Exceeds".toList <+: (tooManyDigitsMessage digits).toList := by
  unfold tooManyDigitsMessage
  repeat first | decide | apply prefix_toList_append

theorem Reader.Tells.not_internal
    {r : Reader} {text : String} {fault : Fault}
    (h : r.Tells text fault) :
    ¬ fault.Internal := by
  cases h with
  | tooLarge hsize =>
      rintro ⟨spanFault, hmessage⟩
      exact ne_of_prefix (prefix_sourceTooLarge _ _) spanFault.prefix_message (by decide)
        (by decide) hmessage
  | expectedToken what found hspan =>
      intro hcode
      exact absurd (Option.some.inj hcode) (by decide : Code.expectedToken ≠ .noProgress)
  | strayClosingTag slash hspan =>
      intro hcode
      exact absurd (Option.some.inj hcode) (by decide : Code.unexpectedCharacter ≠ .noProgress)
  | tagMismatch opened closed hspan =>
      intro hcode
      exact absurd (Option.some.inj hcode) (by decide : Code.tagMismatch ≠ .noProgress)
  | tooDeep =>
      intro hcode
      exact absurd (Option.some.inj hcode) (by decide : Code.depthExceeded ≠ .noProgress)
  | tooManyDigits hholds =>
      rintro ⟨spanFault, hmessage⟩
      exact ne_of_prefix (prefix_tooManyDigitsMessage _) spanFault.prefix_message (by decide)
        (by decide) hmessage

/-- Reading gives a message or one of the faults that are told of a text, none of which is a fault
of reading itself. -/
theorem Reader.readValue_tells
    (r : Reader) (v : Value) :
    (∃ m, (r.readValue v).outcome = .ok m)
      ∨
    ∃ fault, (r.readValue v).outcome = .error fault ∧
      r.Tells v.display fault ∧ ¬ fault.Internal := by
  cases hread : r.read v.display.toList with
  | ok result =>
      left
      exact ⟨result.1, by simp [Reader.readValue, hread]⟩
  | error fault =>
      right
      have htells := Reader.tells_of_error hread
      refine ⟨fault.toFault (Stretch.whole v.display), ?_, htells, htells.not_internal⟩
      simp [Reader.readValue, hread, Stretch.whole]

end MessageFormat
