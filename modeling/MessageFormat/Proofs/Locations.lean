import MessageFormat.Proofs.Exits
import MessageFormat.Proofs.Failures

/-!
# What faults point at

A syntax report shows what is wrong: `Reader.readValue_points` says so of every report of something
that was expected or that was not, wherever in the text the fault was found. Its span lies inside of
the text (`Span.Locates`), the line and the column are those of its start, and the characters at its
span are the ones that its code is about (`Diagnostic.Shows`).

For something that was expected this holds of every place, so it is a matter of the span alone. A
stray closing tag and a mismatched one are found behind what they point at, and the places are those
where markup starts: `Fails.points` carries what stands there out of the bodies around the fault.
-/

namespace MessageFormat

namespace Place

/-- What is left at a later place stands in what is left at an earlier one. -/
theorem Follows.getElem?_eq
    {p q : Place} (h : q.Follows p) (i : Nat) :
    p.rest[p.left - q.left + i]? = q.rest[i]? := by
  obtain ⟨before, hbefore⟩ := h
  have hlength : p.left - q.left = before.length := by
    simp [left, ← hbefore]
  rw [hlength, ← hbefore, List.getElem?_append_right (Nat.le_add_right _ _)]
  simp

/-- The next character is the one at the start of what is left. -/
theorem Follows.getElem?_peek
    {p q : Place} (h : q.Follows p) :
    p.rest[p.left - q.left]? = q.peek := by
  simpa [peek, List.head?_eq_getElem?] using h.getElem?_eq 0

end Place

/-- What stands where reading from a place failed: a stray closing tag is found at its slash, behind
its opener, and a mismatched one at its opener, up to its closer. -/
def Failure.Points (d : Dialect) (p : Place) (f : Failure) : Prop :=
  match f.cause with
  | .strayClosingTag slash =>
      slash = d.tagSlash ∧ f.place.peek = some d.tagSlash ∧ f.place.Behind p d.tagOpener
  | .tagMismatch opened closed length =>
      opened ≠ closed ∧
        f.place.peek = some d.tagOpener ∧
        f.place.advance.peek = some d.tagSlash ∧
        f.place.rest[length]? = some d.tagCloser
  | _ => True

/-- A failure that was found further on points at what it is about from here as well. -/
theorem Failure.Points.of_follows
    {d : Dialect} {p q : Place} {f : Failure}
    (h : f.Points d q) (hq : q.Follows p) :
    f.Points d p := by
  obtain ⟨cause, place⟩ := f
  cases cause with
  | strayClosingTag slash => exact ⟨h.1, h.2.1, h.2.2.of_follows hq⟩
  | tagMismatch opened closed length => exact h
  | expected | noProgress | endOfText | tooDeep | notNumber | tooManyDigits => trivial

/-- What was expected is not about a tag. -/
theorem Failure.Expects.points
    {d : Dialect} {p q : Place} {f : Failure} (h : f.Expects q) :
    f.Points d p := by
  obtain ⟨what, r, -, rfl⟩ := h
  trivial

namespace Dialect

variable {d e : Dialect} {p q : Place} {f : Failure}

theorem offsetResult_points
    {clause : OffsetClause} (h : offsetResult p clause = .error f) :
    f.Points e q := by
  cases clause <;> cases h <;> trivial

theorem readOffsetClause_points
    {type : String} {seam : Seam} (h : d.readOffsetClause type p seam = .error f) :
    f.Points e q := by
  unfold readOffsetClause at h
  split at h
  · split at h
    · next hnumber =>
        cases h
        exact offsetResult_points hnumber
    · cases h
    · cases h
  · cases h

/-- A closing tag of another name is found at its opener, and the length that is told of it reaches
up to its closer. -/
theorem readClosingTag_points
    {opened : String} {start : Place}
    (h : d.readClosingTag opened start p = .error f) (hp : p.Follows start)
    (hopener : start.peek = some d.tagOpener) (hslash : start.advance.peek = some d.tagSlash) :
    f.Points d q := by
  have hskip : (p.skip.scan d .tagName).2.skip.Follows start :=
    ((Place.skip_follows _).trans ((p.skip.scan_follows d .tagName).trans p.skip_follows)).trans hp
  simp only [readClosingTag, Place.expected] at h
  split at h
  · cases h
  · split at h
    · cases h
      trivial
    · next hcloser =>
        split at h
        · next hname =>
            cases h
            refine ⟨Ne.symm hname, hopener, hslash, ?_⟩
            rw [hskip.getElem?_peek]
            simpa using hcloser
        · cases h

theorem readTagHead_points
    {enclosing : Enclosing}
    (h : d.readTagHead enclosing p = .error f) (hopener : p.peek = some d.tagOpener) :
    f.Points d p := by
  simp only [readTagHead] at h
  split at h
  · next hslash =>
      split at h
      · exact readClosingTag_points h (p.advance.advance_follows.trans p.advance_follows) hopener
          hslash
      · cases h
        exact ⟨rfl, hslash, Place.behind_advance hopener⟩
  · split at h
    · cases h
    · split at h
      · split at h <;> cases h
      · split at h <;> cases h

end Dialect

namespace Context

/-- A rule is tried where its first character stands. -/
def Begins (cx : Context) (p : Place) : Rule → Prop
  | .piece first => p.peek = some first
  | .markup => p.peek = some cx.dialect.tagOpener
  | .body | .placeholder | .submessages => True

/-- Every failure points at what it is about. -/
theorem Fails.points
    {cx : Context} {p : Place} {rule : Rule} {f : Failure}
    (h : Fails cx p rule f) (hbegins : cx.Begins p rule) :
    f.Points cx.dialect p := by
  induction h with
  | piece hpeek hends hpiece ih => exact ih hpeek
  | rest hpeek hends hpiece hrest ih =>
      exact (ih trivial).of_follows (hpiece.piece_follows hpeek)
  | @opened cx p c f hatom hopener hnode ih => exact (ih trivial).of_follows p.advance_follows
  | marked hatom htags hopener hmarkup ih =>
      subst hopener
      exact ih hbegins
  | head hhead => exact (Dialect.readHead_expects hhead).points
  | offset hhead hoffset => exact Dialect.readOffsetClause_points hoffset
  | format hhead hoffset hplain hformat => exact (Dialect.readFormat_expects hformat).points
  | formatCloser hhead hoffset hplain hformat hcloser =>
      exact (Dialect.readCloser_expects hcloser).points
  | placeholderTooDeep hhead hoffset hbranching henter => trivial
  | submessages hhead hoffset hbranching henter hsubs ih =>
      have hinner := ih trivial
      obtain ⟨_, rfl⟩ := enter?_eq_some henter
      exact hinner.of_follows
        ((Dialect.readOffsetClause_follows hoffset).trans (Dialect.readHead_follows hhead))
  | incomplete hhead hoffset hbranching henter hsubs hincomplete => trivial
  | branchingCloser hhead hoffset hbranching henter hsubs hcomplete hcloser =>
      exact (Dialect.readCloser_expects hcloser).points
  | selector hpeek hselector => exact (Dialect.readSelector_expects hselector).points
  | entryBody hpeek hselector hbody ih =>
      exact (ih trivial).of_follows (Dialect.readSelector_follows hselector)
  | entryCloser hpeek hselector hbody hcloser => trivial
  | @laterEntry cx p q r selector body f hpeek hselector hbody hcloser hsubs ih =>
      exact (ih trivial).of_follows ((r.advance.skip_follows.trans r.advance_follows).trans
        (hbody.follows.trans (Dialect.readSelector_follows hselector)))
  | tagHead hhead => exact Dialect.readTagHead_points hhead hbegins
  | tagTooDeep hhead henter => trivial
  | @tagBody cx inner p q name f hhead henter hbody ih =>
      have hinner := ih trivial
      obtain ⟨_, rfl⟩ := enter?_eq_some henter
      exact hinner.of_follows ((Dialect.readTagHead_follows hhead).trans p.advance_follows)
  | tagUnclosed hhead henter hbody hopen => trivial

end Context

/-- The last line of a text starts behind its last line feed, or where the text starts. -/
theorem lastLine_spec
    (text : List Char) :
    ∃ before, text = before ++ lastLine text ∧
      '\n' ∉ lastLine text ∧
      (before = [] ∨ before.getLast? = some '\n') := by
  refine ⟨(text.reverse.dropWhile (· ≠ '\n')).reverse, ?_, ?_, ?_⟩
  · rw [lastLine, ← List.reverse_append, List.takeWhile_append_dropWhile, List.reverse_reverse]
  · intro hmem
    have hline := List.all_takeWhile (p := (· ≠ '\n')) (l := text.reverse)
    rw [List.all_eq_true] at hline
    simpa using hline '\n' (List.mem_reverse.mp hmem)
  · cases hrest : text.reverse.dropWhile (· ≠ '\n') with
    | nil => exact Or.inl rfl
    | cons c rest =>
        right
        have hhead := List.head?_dropWhile_not (· ≠ '\n') text.reverse
        rw [hrest] at hhead
        simpa using hhead

/-- A span lies in a text, from one position to another, and its line and column are those of its
start, counted from 1. -/
structure Span.Locates (span : Span) (text : List Char) (start stop : Nat) : Prop where
  start_eq : span.start = start
  stop_eq : span.stop = stop
  start_le_stop : start ≤ stop
  stop_le : stop ≤ text.length
  line_eq : span.line = 1 + (text.take start).count '\n'
  column_eq : ∃ before line,
    text.take start = before ++ line ∧
      '\n' ∉ line ∧
      (before = [] ∨ before.getLast? = some '\n') ∧
      span.column = start - before.length + 1

theorem Cursor.lineColumn_eq
    {text : String} {start : Nat} (hstart : start ≤ text.toList.length) :
    ∃ before line,
      text.toList.take start = before ++ line ∧
        '\n' ∉ line ∧
        (before = [] ∨ before.getLast? = some '\n') ∧
        Cursor.lineColumn ⟨text, start⟩ =
          (((text.toList.take start).count '\n' : Int) + 1, (start : Int) - before.length + 1) := by
  have hslice : slice text.toList 0 start = text.toList.take start := by
    have hbound : bound text.toList.length start = start := by
      rw [bound, if_neg (by omega)]
      omega
    rw [slice, hbound]
    simp [bound]
  obtain ⟨before, hbefore, hline, hfeed⟩ := lastLine_spec (text.toList.take start)
  refine ⟨before, _, hbefore, hline, hfeed, ?_⟩
  have hlength : (text.toList.take start).length - (lastLine (text.toList.take start)).length =
      before.length := by
    have h := congrArg List.length hbefore
    rw [List.length_append] at h
    omega
  simp only [lineColumn, hslice]
  rw [← hlength]

/-- A cursor in a text has a span up to any later position in it. -/
theorem Cursor.span_locates
    {text : String} {start last : Nat} {stop : Option Int}
    (hstop : stop.getD (if Cursor.isEof ⟨text, start⟩ then (start : Int) else start + 1) = last)
    (hstart : start ≤ last) (hlast : last ≤ text.toList.length) :
    ∃ span : Span,
      Cursor.span ⟨text, start⟩ stop = .ok span ∧ span.Locates text.toList start last := by
  obtain ⟨before, line, hsplit, hline, hfeed, hcolumn⟩ := lineColumn_eq (Nat.le_trans hstart hlast)
  have hbefore : before.length ≤ start := by
    have h := congrArg List.length hsplit
    rw [List.length_take, List.length_append] at h
    omega
  refine ⟨⟨start, last, 1 + (text.toList.take start).count '\n', start - before.length + 1⟩, ?_, ?_⟩
  · simp only [span, hstop, hcolumn, Span.make]
    rw [if_neg (by omega), if_neg (by omega), if_neg (by omega), if_neg (by omega),
      Int.max_eq_left (by omega), Int.add_comm 1]
  · exact ⟨rfl, rfl, hstart, hlast, rfl, before, line, hsplit, hline, hfeed, rfl⟩

/-- A diagnostic about a place in a text is reported with a span from there: over so many
characters, or over the next one, if there is one. -/
theorem Stretch.report_locates
    {text : String} {left : Nat} (kind : Report.Kind) (length : Option Nat)
    (diagnostic : Span → Diagnostic)
    (hleft : left ≤ text.toList.length) (hlength : ∀ n, length = some n → n ≤ left) :
    ∃ span : Span,
      span.Locates text.toList (text.toList.length - left)
          (text.toList.length - left + length.getD (min 1 left)) ∧
        (whole text).report kind left length diagnostic =
          .reported (Report.ofDiagnostic kind (diagnostic span) text) := by
  have hcursor : (whole text).cursorAt left = ⟨text, (text.toList.length - left : Nat)⟩ := by
    simp only [whole, cursorAt, Cursor.mk.injEq, true_and]
    omega
  obtain ⟨span, hspan, hlocates⟩ : ∃ span : Span,
      ((whole text).cursorAt left).span
          (length.map fun n => ((whole text).cursorAt left).pos + n) = .ok span ∧
        span.Locates text.toList (text.toList.length - left)
          (text.toList.length - left + length.getD (min 1 left)) := by
    rw [hcursor]
    cases length with
    | none =>
        refine Cursor.span_locates ?_ (Nat.le_add_right _ _) ?_
        · simp only [Cursor.isEof, Cursor.length]
          grind
        · simp only [Option.getD_none]
          omega
    | some n =>
        have hn := hlength n rfl
        refine Cursor.span_locates rfl (Nat.le_add_right _ _) ?_
        simp only [Option.getD_some]
        omega
  refine ⟨span, hlocates, ?_⟩
  simp only [report, hspan]
  rfl

/-- What stands in a text at the span of a diagnostic. Something was expected where the
character that was found stands, or at the end; a stray closing tag is found at its slash, and a
mismatched one reaches from its opener up to its closer. Other diagnostics are not about a place
in the text. -/
def Diagnostic.Shows (diagnostic : Diagnostic) (d : Dialect) (text : List Char)
    (start stop : Nat) : Prop :=
  match diagnostic.code with
  | .expectedToken =>
      (∀ h : start < text.length, diagnostic.found = some text[start].toString ∧ stop = start + 1) ∧
        (diagnostic.found = some "eof" ↔ start = text.length) ∧
        (stop = start ↔ start = text.length)
  | .unexpectedCharacter =>
      diagnostic.found = some d.tagSlash.toString ∧
        text[start]? = some d.tagSlash ∧
        1 ≤ start ∧ text[start - 1]? = some d.tagOpener
  | .tagMismatch =>
      text[start]? = some d.tagOpener ∧
        text[start + 1]? = some d.tagSlash ∧
        text[stop]? = some d.tagCloser ∧
        ∃ opened closed : String,
          diagnostic.expected = some opened ∧ diagnostic.found = some closed ∧ opened ≠ closed
  | _ => False

/-- A report shows a fault of a text: it holds the text, a span in it with what stands there, and
the position where the span starts. -/
def Report.PointsInto (report : Report) (d : Dialect) (text : String) : Prop :=
  report.source = text ∧
    ∃ diagnostic span, ∃ start stop : Nat,
      report.diagnostic = some diagnostic ∧
        diagnostic.span = some span ∧
        span.Locates text.toList start stop ∧
        diagnostic.Shows d text.toList start stop ∧
        ∃ before after, report.message = before ++ s!"at position {span.start}" ++ after

/-- A character is told as it is. -/
theorem Diagnostic.describeFound_char
    (c : Char) :
    describeFound (some c.toString) = c.toString := by
  simp [describeFound]

/-- No character is told like the end of a text. -/
theorem char_ne_eof
    (c : Char) :
    c.toString ≠ "eof" := by
  intro h
  have hlength : 1 = "eof".length := by
    simpa using congrArg String.length h
  exact absurd hlength (by decide)

namespace Stretch

variable {d : Dialect} {text : String} {place : Place} {report : Report}

/-- What was expected is told with what was found instead, a character or the end. -/
theorem shows_expected
    {expected : String} {span : Span} (hplace : place.Follows ⟨text.toList, []⟩) :
    (Diagnostic.expectedToken expected (place.peek.map Char.toString) span).Shows d text.toList
      (text.toList.length - place.left)
      (text.toList.length - place.left + min 1 place.left) := by
  have hpeek : text.toList[text.toList.length - place.left]? = place.peek :=
    hplace.getElem?_peek
  have hleft : place.left ≤ text.toList.length := hplace.left_le
  cases hnext : place.peek with
  | none =>
      have hend : place.left = 0 := by
        simpa [Place.peek, Place.left] using hnext
      simp [Diagnostic.Shows, Diagnostic.expectedToken, Diagnostic.describeFound, hend]
  | some c =>
      have hmore : 0 < place.left := by
        have := Place.advance_left_lt hnext
        omega
      rw [hnext] at hpeek
      have hfound := Diagnostic.describeFound_char c
      refine ⟨?_, ?_, ?_⟩
      · intro hlt
        rw [List.getElem?_eq_getElem hlt] at hpeek
        cases hpeek
        exact ⟨congrArg some hfound, by omega⟩
      · refine iff_of_false (fun heof => ?_) (by omega)
        exact char_ne_eof c (hfound.symm.trans (Option.some.inj heof))
      · omega

theorem account_expected
    (what : Expectation) (hplace : place.Follows ⟨text.toList, []⟩)
    (h : (whole text).account ⟨.expected what, place⟩ = .reported report) :
    report.PointsInto d text := by
  obtain ⟨span, hlocates, hreport⟩ := report_locates .expectedToken none
    (Diagnostic.expectedToken what.describe (place.peek.map Char.toString)) hplace.left_le (by simp)
  simp only [account, hreport] at h
  cases h
  refine ⟨rfl, _, span, _, _, rfl, rfl, hlocates, shows_expected hplace,
    s!"expected {what.describe} ",
    s!" but found {Diagnostic.describeFound (place.peek.map Char.toString)}", ?_⟩
  simp [Report.ofDiagnostic, Diagnostic.expectedToken, ← String.toList_inj, toString]

/-- A stray closing tag is told at its slash, behind its opener. -/
theorem account_strayClosingTag
    {slash : Char} (hplace : place.Follows ⟨text.toList, []⟩)
    (hpoints : Failure.Points d ⟨text.toList, []⟩ ⟨.strayClosingTag slash, place⟩)
    (h : (whole text).account ⟨.strayClosingTag slash, place⟩ = .reported report) :
    report.PointsInto d text := by
  obtain ⟨rfl, hslash, before, hbefore⟩ := hpoints
  obtain ⟨span, hlocates, hreport⟩ := report_locates .unexpectedCharacter none
    (Diagnostic.unexpectedCharacter d.tagSlash.toString) hplace.left_le (by simp)
  simp only [account, hreport] at h
  cases h
  dsimp only at hbefore
  have hstart : text.toList.length - place.left = before.length + 1 := by
    rw [hbefore, Place.left, List.length_append, List.length_cons]
    omega
  refine ⟨rfl, _, span, _, _, rfl, rfl, hlocates, ⟨rfl, ?_, ?_, ?_⟩,
    s!"unexpected {d.tagSlash} ", "", ?_⟩
  · exact hplace.getElem?_peek.trans hslash
  · omega
  · rw [hstart, hbefore]
    simp
  · simp [Report.ofDiagnostic, Diagnostic.unexpectedCharacter, ← String.toList_inj, toString]

/-- A mismatched closing tag is told from its opener up to its closer. -/
theorem account_tagMismatch
    {opened closed : String} {length : Nat} (hplace : place.Follows ⟨text.toList, []⟩)
    (hlength : length ≤ place.left)
    (hpoints : Failure.Points d ⟨text.toList, []⟩ ⟨.tagMismatch opened closed length, place⟩)
    (h : (whole text).account ⟨.tagMismatch opened closed length, place⟩ = .reported report) :
    report.PointsInto d text := by
  obtain ⟨hne, hopener, hslash, hcloser⟩ := hpoints
  obtain ⟨span, hlocates, hreport⟩ := report_locates .unexpectedCharacter (some length)
    (Diagnostic.tagMismatch opened closed) hplace.left_le (by simpa using hlength)
  simp only [account, hreport] at h
  cases h
  refine ⟨rfl, _, span, _, _, rfl, rfl, hlocates,
    ⟨?_, ?_, ?_, opened, closed, rfl, rfl, hne⟩, "unexpected tag mismatch ", "", ?_⟩
  · exact hplace.getElem?_peek.trans hopener
  · refine (hplace.getElem?_eq 1).trans ?_
    simpa [Place.peek, Place.advance] using hslash
  · exact (hplace.getElem?_eq length).trans hcloser
  · simp [Report.ofDiagnostic, Diagnostic.tagMismatch, ← String.toList_inj, toString]

end Stretch

/-- A report of something that was expected or that was not expected points at it. -/
theorem Reader.readValue_points
    {r : Reader} {v : Value} {report : Report}
    (h : (r.readValue v).outcome = .error (.reported report))
    (hkind : report.kind = .expectedToken ∨ report.kind = .unexpectedCharacter) :
    report.PointsInto r.dialect v.display := by
  cases hread : r.read v.display.toList with
  | ok result => simp [readValue, hread] at h
  | error fault =>
      have htold : fault.toFault (Stretch.whole v.display) = .reported report := by
        simpa [readValue, hread, Stretch.whole] using h
      rcases read_eq_error hread with ⟨hsize, rfl⟩ | ⟨⟨cause, place⟩, hfails, rfl⟩
      · cases htold
      · have hpoints := hfails.points trivial
        obtain ⟨hplace, hcause⟩ := hfails.documented rfl
        cases hcause with
        | expected what => exact Stretch.account_expected what hplace htold
        | strayClosingTag slash => exact Stretch.account_strayClosingTag hplace hpoints htold
        | tagMismatch hlength => exact Stretch.account_tagMismatch hplace hlength hpoints htold
        | tooDeep =>
            cases htold
            simp [Report.tooDeep, Report.ofDiagnostic] at hkind
        | tooManyDigits hholds => cases htold

/-- A closing tag of another name, on the second line. -/
def mismatchedTag : Report :=
  Report.ofDiagnostic .unexpectedCharacter
    (Diagnostic.tagMismatch "b" "i" ⟨6, 9, 2, 5⟩) "x\n<b>y</i>"

theorem Reader.readValue_points_mismatchedTag :
    (Reader.readValue ⟨.standard, 0, 10⟩ (.str "x\n<b>y</i>")).outcome =
        .error (.reported mismatchedTag) ∧
      mismatchedTag.kind = .unexpectedCharacter ∧
      mismatchedTag.PointsInto .standard "x\n<b>y</i>" := by
  have hread : (Reader.readValue ⟨.standard, 0, 10⟩ (.str "x\n<b>y</i>")).outcome =
      .error (.reported mismatchedTag) := by
    decide +kernel
  exact ⟨hread, rfl, readValue_points hread (Or.inr rfl)⟩

end MessageFormat
