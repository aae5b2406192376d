import MessageFormat.Proofs.Locality
import MessageFormat.Proofs.Locations

/-!
# What an offset clause says

An offset clause is read exactly (`Cursor.readOffset_exact`). Where the keyword is not there, no
offset is given and nothing is taken. Where it is, the text behind it is cut into blanks, a sign and
digits (`NumberCut`), and the cut decides what is told (`NumberCut.Decides`): the number that the
digits write, up to the last of them; without digits, that a number was expected where the blanks
end, in front of the sign; and with too many digits, how many there are.
-/

namespace MessageFormat

variable {behind : List Char}

/-- What reading an offset clause gives, where the text behind the keyword starts at a position and
is cut in this way. -/
structure NumberCut.Decides
    (cut : NumberCut behind) (source : String) (start : Nat)
    (outcome : Except Fault (FromCursor (Option Int))) : Prop where
  number : cut.digits ≠ [] → cut.digits.length ≤ maxDigits →
    outcome = .ok ⟨some cut.value,
      (start + cut.blanks.length + cut.sign.length + cut.digits.length : Nat)⟩
  missing : cut.digits = [] →
    ∃ span : Span,
      span.Locates source.toList (start + cut.blanks.length)
          (start + cut.blanks.length + min 1 (cut.sign ++ cut.after).length) ∧
        outcome = .error (.reported (Report.ofDiagnostic .expectedToken
          (Diagnostic.expectedToken "number" ((cut.sign ++ cut.after).head?.map Char.toString) span)
          source))
  overlong : maxDigits < cut.digits.length →
    outcome = .error (.invalidValue (tooManyDigitsMessage cut.digits.length))

/-- Behind the keyword a number is read. -/
theorem Dialect.readOffset_keyword
    (d : Dialect) (rest : List Char) :
    d.readOffset (d.offsetKeyword.toList ++ rest) = readNumber rest := by
  have hkeyword : d.offsetKeyword.toList.isPrefixOf (d.offsetKeyword.toList ++ rest) = true :=
    List.isPrefixOf_iff_prefix.mpr (List.prefix_append _ rest)
  rw [readOffset, Seam.near_none, if_pos hkeyword, List.drop_left]

/-- Accounts are the same if places have the same cursors. -/
theorem Stretch.account_congr
    {s t : Stretch} (hsource : s.origin.source = t.origin.source)
    (hcursor : ∀ left, s.cursorAt left = t.cursorAt left) (f : Failure) :
    s.account f = t.account f := by
  simp only [account, report, hsource, hcursor]

/-- What was expected is told where it should stand, with the character that stands there. -/
theorem Stretch.account_expected_at
    {text : String} {start : Nat} {rest : List Char} (what : Expectation)
    (hlength : text.toList.length = start + rest.length) :
    ∃ span : Span,
      span.Locates text.toList start (start + min 1 rest.length) ∧
        (whole text).account ⟨.expected what, ⟨rest, []⟩⟩ =
          .reported (Report.ofDiagnostic .expectedToken
            (Diagnostic.expectedToken what.describe (rest.head?.map Char.toString) span) text) := by
  have hleft : rest.length ≤ text.toList.length := by
    omega
  obtain ⟨span, hlocates, hreport⟩ := report_locates .expectedToken none
    (Diagnostic.expectedToken what.describe (rest.head?.map Char.toString)) hleft (by simp)
  have hposition : text.toList.length - rest.length = start := by
    omega
  rw [hposition] at hlocates
  exact ⟨span, hlocates, hreport⟩

namespace Cursor

variable {c : Cursor} {α : Type} {rule : Place → Except Failure (α × Place)}

/-- A fault that is found from a cursor in its text is told as one that is found from the start. -/
theorem readBy_of_failure
    {f : Failure} (hstart : 0 ≤ c.pos) (hstop : c.pos ≤ c.length)
    (h : rule c.place = .error f) :
    (c.readBy rule).outcome = .error ((Stretch.whole c.source).account f) := by
  have hrule : rule { rest := c.place.rest } = .error f := h
  have hleft := (at_place hstart hstop).left_eq
  have hcursor (left : Nat) :
      Stretch.cursorAt ⟨c, c.place.left⟩ left = (Stretch.whole c.source).cursorAt left := by
    simp only [Stretch.cursorAt, Stretch.whole, Cursor.mk.injEq, true_and]
    unfold length at hleft
    omega
  have haccount :=
    Stretch.account_congr (s := ⟨c, c.place.left⟩) (t := .whole c.source) rfl hcursor f
  simp only [readBy, ahead_eq hstart, readAhead, hrule]
  exact congrArg Except.error haccount

/-- A rule that takes a window is done behind it. -/
theorem Frames.readBy_eq
    {before window after : List Char} {value : α} (h : c.Frames before window after)
    (hrule : rule ⟨window ++ after, []⟩ = .ok (value, ⟨after, []⟩)) :
    (c.readBy rule).outcome = .ok ⟨value, c.pos + window.length⟩ := by
  rw [← h.place_eq] at hrule
  rw [readBy_of_rule h.nonneg hrule, h.place_eq]
  simp only [Place.left, List.length_append, Except.ok.injEq, FromCursor.mk.injEq, true_and]
  omega

theorem readOffset_eq
    (hstart : 0 ≤ c.pos) (d : Dialect) :
    c.readOffset d = c.readBy fun p => d.readOffsetNumber p := by
  have hlength : 0 ≤ c.length := Int.natCast_nonneg _
  have hinside : c.isBeforeStart = false := by
    simp only [isBeforeStart, decide_eq_false_iff_not]
    omega
  have hseam : c.seam = none := if_neg (by omega)
  simp only [readOffset, hinside, hseam]
  rfl

variable {d : Dialect} {before number after : List Char} {n : Int}

/-- A number that is read behind the keyword is taken together with it. -/
theorem Frames.readOffset_eq
    (h : c.Frames before (d.offsetKeyword.toList ++ number) after)
    (hnumber : Dialect.readNumber (number ++ after) = .offset n after) :
    (c.readOffset d).outcome =
      .ok ⟨some n, c.pos + (d.offsetKeyword.toList ++ number).length⟩ := by
  rw [Cursor.readOffset_eq h.nonneg]
  refine h.readBy_eq ?_
  rw [Dialect.readOffsetNumber, List.append_assoc, Dialect.readOffset_keyword, hnumber]
  rfl

theorem readOffset_of_failure
    {f : Failure} (hstart : 0 ≤ c.pos) (hstop : c.pos ≤ c.length)
    (h : d.readOffsetNumber c.place = .error f) :
    (c.readOffset d).outcome = .error ((Stretch.whole c.source).account f) := by
  rw [readOffset_eq hstart]
  exact readBy_of_failure hstart hstop h

/-- How an offset clause is read from a position where the keyword stands. -/
theorem readOffset_decides
    {text : String} {p : Nat} (hp : p ≤ text.toList.length)
    (hbehind : text.toList.drop p = d.offsetKeyword.toList ++ behind) (cut : NumberCut behind) :
    cut.Decides text (p + d.offsetKeyword.toList.length) (readOffset ⟨text, p⟩ d).outcome := by
  have hstart : 0 ≤ (⟨text, p⟩ : Cursor).pos := Int.natCast_nonneg p
  have hstop : (⟨text, p⟩ : Cursor).pos ≤ (⟨text, p⟩ : Cursor).length := Int.ofNat_le.mpr hp
  have hplace : (⟨text, p⟩ : Cursor).place = ⟨d.offsetKeyword.toList ++ behind, []⟩ := by
    rw [place, Int.toNat_natCast, hbehind]
  have hfailure {clause : OffsetClause} {f : Failure} (hread : Dialect.readNumber behind = clause)
      (hf : Dialect.offsetResult ⟨d.offsetKeyword.toList ++ behind, []⟩ clause = .error f) :
      (readOffset ⟨text, p⟩ d).outcome = .error ((Stretch.whole text).account f) := by
    refine readOffset_of_failure hstart hstop ?_
    rw [hplace, Dialect.readOffsetNumber, Dialect.readOffset_keyword, hread]
    exact hf
  have hread := cut.readNumber_eq
  constructor
  case number =>
    intro hdigits hlength
    rw [if_neg hdigits, if_neg (by omega)] at hread
    have htext : behind = (cut.blanks ++ (cut.sign ++ cut.digits)) ++ cut.after := by
      simpa using cut.text_eq
    have hrest : (⟨text, p⟩ : Cursor).place.rest =
        (d.offsetKeyword.toList ++ (cut.blanks ++ (cut.sign ++ cut.digits))) ++ cut.after := by
      rw [hplace, List.append_assoc, ← htext]
    obtain ⟨before, hframes⟩ := exists_frames hstart hstop hrest
    rw [hframes.readOffset_eq ((congrArg Dialect.readNumber htext).symm.trans hread)]
    simp only [List.length_append, Except.ok.injEq, FromCursor.mk.injEq, true_and]
    omega
  case missing =>
    intro hdigits
    rw [if_pos hdigits] at hread
    have hsource : text.toList.length =
        p + d.offsetKeyword.toList.length + cut.blanks.length + (cut.sign ++ cut.after).length := by
      have hlength := congrArg List.length hbehind
      have hparts := congrArg List.length cut.text_eq
      simp only [List.length_drop, List.length_append, hdigits, List.length_nil] at hlength hparts ⊢
      omega
    obtain ⟨span, hlocates, haccount⟩ := Stretch.account_expected_at .number hsource
    refine ⟨span, hlocates, ?_⟩
    exact (hfailure hread rfl).trans (congrArg Except.error haccount)
  case overlong =>
    intro hlength
    have hdigits : cut.digits ≠ [] := by
      intro hnone
      simp [hnone] at hlength
    rw [if_neg hdigits, if_pos hlength] at hread
    exact hfailure hread rfl

/-- An offset clause is read exactly. From a position where the keyword does not stand, no offset is
given and the position stays. Where it stands, the text behind it is cut into blanks, a sign and
digits, and the cut decides what is read. So every number that has no more than the largest number
of digits is read back as it is written, from between any two texts of which the second does not
start with a digit. -/
theorem readOffset_exact
    (d : Dialect) {text : String} {p : Nat} (hp : p ≤ text.toList.length) :
    (¬ d.offsetKeyword.toList <+: text.toList.drop p →
      (readOffset ⟨text, p⟩ d).outcome = .ok ⟨none, p⟩) ∧
    (∀ behind, text.toList.drop p = d.offsetKeyword.toList ++ behind →
      Nonempty (NumberCut behind) ∧
        ∀ cut : NumberCut behind,
          cut.Decides text (p + d.offsetKeyword.toList.length) (readOffset ⟨text, p⟩ d).outcome) ∧
    ∀ n : Int, n.natAbs < leastOver maxDigits →
      ∀ before after : String, after.toList.head?.any Char.isDigit = false →
        (readOffset ⟨before ++ (d.offsetKeyword ++ decimal n) ++ after, before.toList.length⟩
            d).outcome =
          .ok ⟨some n,
            before.toList.length + (d.offsetKeyword.toList ++ (decimal n).toList).length⟩ := by
  refine ⟨?_, ?_, ?_⟩
  · intro habsent
    have hstart : 0 ≤ (⟨text, p⟩ : Cursor).pos := Int.natCast_nonneg p
    have hclause : d.readOffset (⟨text, p⟩ : Cursor).place.rest = .absent := by
      rw [place, Int.toNat_natCast]
      exact Dialect.readOffset_absent_iff.mpr habsent
    have hrule : d.readOffsetNumber (⟨text, p⟩ : Cursor).place =
        .ok (none, (⟨text, p⟩ : Cursor).place) := by
      rw [Dialect.readOffsetNumber, hclause]
      rfl
    rw [readOffset_eq hstart, readBy_of_rule hstart hrule, Int.sub_self, Int.add_zero]
  · intro behind hbehind
    exact ⟨NumberCut.nonempty_numberCut behind, readOffset_decides hp hbehind⟩
  · intro n hn before after hafter
    have hframes : Frames ⟨before ++ (d.offsetKeyword ++ decimal n) ++ after, before.toList.length⟩
        before.toList (d.offsetKeyword.toList ++ (decimal n).toList) after.toList :=
      ⟨by simp, rfl⟩
    exact hframes.readOffset_eq (Dialect.readNumber_decimal hn hafter)

/-- A number with zeros in front, between blanks. -/
def leadingZeros : NumberCut " -007 other".toList where
  blanks := [' ']
  sign := ['-']
  digits := ['0', '0', '7']
  after := " other".toList
  text_eq := by decide
  blanks_run := by decide
  blanks_end := by decide
  sign_mem := by decide
  sign_end := nofun
  digits_run := by decide
  digits_end := by decide

/-- Zeros in front of a number do not count, and are not written back. -/
theorem readOffset_exact_leadingZeros :
    11 ≤ "n, plural, offset: -007 other".toList.length ∧
      (readOffset ⟨"n, plural, offset: -007 other", (11 : Nat)⟩ .standard).outcome =
        .ok ⟨some (-7), 23⟩ ∧
      (-7 : Int).natAbs < leastOver maxDigits ∧
      (readOffset ⟨"" ++ ("offset:" ++ decimal (-7)) ++ " other", 0⟩ .standard).outcome =
        .ok ⟨some (-7), 9⟩ := by
  have hp : 11 ≤ "n, plural, offset: -007 other".toList.length := by
    decide
  have hsmall : (-7 : Int).natAbs < leastOver maxDigits := by
    decide +kernel
  obtain ⟨-, hcut, hdecimal⟩ := readOffset_exact .standard hp
  have hdecides := (hcut " -007 other".toList (by decide)).2 leadingZeros
  exact ⟨hp, hdecides.number (by decide) (by decide), hsmall,
    hdecimal (-7) hsmall "" " other" (by decide)⟩

end Cursor

end MessageFormat
