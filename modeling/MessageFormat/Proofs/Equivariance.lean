import MessageFormat.Proofs.Renaming.Reading
import MessageFormat.Proofs.Renaming.Writing
import MessageFormat.Proofs.RoundTrip

/-!
# No delimiter is fixed

What a text means depends on the roles of its characters, not on the characters: if a text, a
message and a dialect are renamed together, reading and writing answer with the renamed result, or
with a fault that is told alike (`Renaming.equivariance`).

A fault has another wording after renaming, since the wording quotes the text. Its kind, its code
and its span stay as they are (`Fault.Alike`): positions count characters, and line feeds are kept.
-/

namespace MessageFormat

/-- What a fault is, without its wording. -/
inductive Fault.Kind where
  | reported (kind : Report.Kind)
  | invalidValue
  | misuse (kind : Misuse.Kind)
  | endOfText
  | unreachable
deriving DecidableEq, Repr

namespace Fault

/-- The kind of a fault. -/
def kind : Fault → Fault.Kind
  | .reported report => .reported report.kind
  | .invalidValue _ => .invalidValue
  | .misuse m => .misuse m.kind
  | .endOfText _ => .endOfText
  | .unreachable _ => .unreachable

/-- The code of the diagnostic of a fault, if it has one. -/
def code? : Fault → Option Code
  | .reported report => report.diagnostic.map (·.code)
  | _ => none

/-- Where a fault is, if that is known. -/
def span? : Fault → Option Span
  | .reported report => report.span
  | _ => none

/-- Two faults that differ at most in their wording. -/
structure Alike (f g : Fault) : Prop where
  kind : f.kind = g.kind
  code : f.code? = g.code?
  span : f.span? = g.span?

theorem Alike.refl
    (f : Fault) :
    f.Alike f :=
  ⟨rfl, rfl, rfl⟩

theorem Alike.invalidValue
    (message message' : String) :
    (Fault.invalidValue message).Alike (.invalidValue message') :=
  ⟨rfl, rfl, rfl⟩

/-- An answer, and one in which the result is renamed or the fault is told alike. -/
inductive Mirrors {α : Type} (rename : α → α) : Except Fault α → Except Fault α → Prop
  | result
      (a : α) :
      Mirrors rename (.ok a) (.ok (rename a))
  | fault
      {f g : Fault}
      (halike : f.Alike g) :
      Mirrors rename (.error f) (.error g)

end Fault

namespace Renaming

variable (s : Renaming)

section Positions

theorem count_lineFeed_map
    (text : List Char) :
    (text.map s.char).count '\n' = text.count '\n' := by
  have hfeed : (· == '\n') ∘ s.char = (· == '\n') := by
    funext c
    rw [Bool.eq_iff_iff]
    simp
  rw [List.count_eq_countP, List.countP_map, hfeed, ← List.count_eq_countP]

theorem lastLine_map
    (text : List Char) :
    lastLine (text.map s.char) = (lastLine text).map s.char := by
  have hline : (fun c => decide (c ≠ '\n')) ∘ s.char = fun c => decide (c ≠ '\n') := by
    funext c
    simp
  rw [lastLine, ← List.map_reverse, List.takeWhile_map, hline, ← List.map_reverse, lastLine]

theorem slice_map
    (text : List Char) (start stop : Int) :
    slice (text.map s.char) start stop = (slice text start stop).map s.char := by
  simp [slice]

/-- A cursor, renamed: its text is. -/
def cursor (c : Cursor) : Cursor :=
  { c with source := s.str c.source }

/-- A cursor points at the same line and column of the renamed text. -/
theorem lineColumn_cursor
    (c : Cursor) :
    (s.cursor c).lineColumn = c.lineColumn := by
  simp only [Cursor.lineColumn, cursor, toList_str, slice_map, lastLine_map, count_lineFeed_map,
    List.length_map]

theorem span_cursor
    (c : Cursor) (stop : Option Int) :
    (s.cursor c).span stop = c.span stop := by
  have heof : (s.cursor c).isEof = c.isEof := by
    simp only [Cursor.isEof, Cursor.length, cursor, toList_str, List.length_map]
    rfl
  simp only [Cursor.span, heof, lineColumn_cursor]
  rfl

end Positions

/-- A stretch of text, renamed. -/
def stretch (stretch : Stretch) : Stretch :=
  { stretch with origin := s.cursor stretch.origin }

section Accounts

variable (stretch : Stretch)

/-- Diagnostics of one code about one part of the text are told alike. -/
theorem report_alike
    {diagnostic diagnostic' : Span → Diagnostic}
    (hcode : ∀ span, (diagnostic span).code = (diagnostic' span).code)
    (hspan : ∀ span, (diagnostic span).span = (diagnostic' span).span)
    (kind : Report.Kind) (left : Nat) (length : Option Nat) :
    (stretch.report kind left length diagnostic).Alike
      ((s.stretch stretch).report kind left length diagnostic') := by
  have hcursor : (s.stretch stretch).cursorAt left = s.cursor (stretch.cursorAt left) := rfl
  simp only [Stretch.report, hcursor, span_cursor]
  have hpos : (s.cursor (stretch.cursorAt left)).pos = (stretch.cursorAt left).pos := rfl
  rw [hpos]
  cases (stretch.cursorAt left).span (length.map fun n => (stretch.cursorAt left).pos + n) with
  | error fault => exact ⟨rfl, rfl, rfl⟩
  | ok span => exact ⟨rfl, congrArg some (hcode span), hspan span⟩

/-- A failure and the renamed failure are told alike. -/
theorem account_alike
    (f : Failure) :
    (stretch.account f).Alike ((s.stretch stretch).account (s.failure f)) := by
  obtain ⟨cause, place⟩ := f
  have hleft : (s.place place).left = place.left := s.place_left place
  cases cause with
  | expected what =>
      simp only [Stretch.account, failure, Renaming.cause, hleft]
      apply report_alike <;> exact fun _ => rfl
  | strayClosingTag slash =>
      simp only [Stretch.account, failure, Renaming.cause, hleft]
      apply report_alike <;> exact fun _ => rfl
  | tagMismatch opened closed length =>
      simp only [Stretch.account, failure, Renaming.cause, hleft]
      apply report_alike <;> exact fun _ => rfl
  | noProgress =>
      simp only [Stretch.account, failure, Renaming.cause, hleft]
      apply report_alike <;> exact fun _ => rfl
  | endOfText =>
      simp only [Stretch.account, failure, Renaming.cause, hleft]
      exact .refl _
  | tooDeep limit =>
      simp only [Stretch.account, failure, Renaming.cause]
      exact .refl _
  | notNumber text =>
      -- The wording quotes the text that is no number.
      simp only [Stretch.account, failure, Renaming.cause]
      exact .invalidValue _ _
  | tooManyDigits digits =>
      simp only [Stretch.account, failure, Renaming.cause]
      exact .refl _

end Accounts

/-- A reader of the renamed dialect, within the same limits. -/
def reader (r : Reader) : Reader :=
  { r with dialect := s.dialect r.dialect }

/-- Why a text is not read, renamed. -/
def readFault : ReadFault → ReadFault
  | .tooLarge size limit => .tooLarge size limit
  | .failure f => .failure (s.failure f)

section Readers

variable (r : Reader) (text : List Char)

theorem refuses_map :
    (s.reader r).Refuses (text.map s.char) ↔ r.Refuses text := by
  simp [Reader.Refuses, reader]

/-- A renamed text is read as the renamed message, or refused for the renamed failure. -/
theorem read_rename :
    (s.reader r).read (text.map s.char) =
      match r.read text with
      | .ok (m, p) => .ok (s.message m, s.place p)
      | .error fault => .error (s.readFault fault) := by
  cases hread : r.read text with
  | ok result =>
      obtain ⟨m, p⟩ := result
      obtain ⟨hsize, closed, hreads⟩ := Reader.read_eq_ok_iff.mp hread
      exact Reader.read_eq_ok_iff.mpr
        ⟨(s.refuses_map r text).not.mpr hsize, closed, hreads.rename s⟩
  | error fault =>
      cases fault with
      | failure f =>
          obtain ⟨hsize, hfails⟩ := Reader.read_eq_failure_iff.mp hread
          exact Reader.read_eq_failure_iff.mpr
            ⟨(s.refuses_map r text).not.mpr hsize, hfails.rename s⟩
      | tooLarge size limit =>
          rcases Reader.read_eq_error hread with ⟨hsize, hfault⟩ | ⟨f, _, hfault⟩
          · have hsize' := (s.refuses_map r text).mpr hsize
            unfold Reader.Refuses at hsize'
            rw [Reader.read, if_pos hsize', List.length_map, hfault]
            rfl
          · cases hfault

end Readers

theorem readFault_alike
    (stretch : Stretch) (fault : ReadFault) :
    (fault.toFault stretch).Alike ((s.readFault fault).toFault (s.stretch stretch)) := by
  cases fault with
  | tooLarge size limit => exact .refl _
  | failure f => exact s.account_alike stretch f

theorem readValue_mirrors
    (r : Reader) (text : String) :
    Fault.Mirrors s.message (r.readValue (.str text)).outcome
      ((s.reader r).readValue (.str (s.str text))).outcome := by
  have hchars : (Value.str (s.str text)).display.toList = text.toList.map s.char :=
    s.toList_str text
  have hchars' : (Value.str text).display.toList = text.toList := rfl
  simp only [Reader.readValue, hchars, hchars', read_rename, List.length_map]
  cases r.read text.toList with
  | ok result => exact .result result.1
  | error fault => exact .fault (s.readFault_alike ⟨⟨text, 0⟩, text.toList.length⟩ fault)

theorem toFault_alike
    (f : WriteFault) :
    f.toFault.Alike (s.writeFault f).toFault := by
  cases f <;> exact ⟨rfl, rfl, rfl⟩

theorem serializeOnStack_mirrors
    (d : Dialect) (frames : Int) (m : Message) :
    Fault.Mirrors s.str (d.serializeOnStack frames m.toValue).outcome
      ((s.dialect d).serializeOnStack frames (Message.toValue (s.message m))).outcome := by
  rw [Dialect.serializeOnStack_outcome, Dialect.serializeOnStack_outcome, serialize_rename]
  cases d.serialize (clampDepth frames standardReserve standardDepth) m with
  | ok text => exact .result text
  | error f => exact .fault (s.toFault_alike f)

/-- No delimiter is fixed. What a text and a message mean depends on the dialect alone: in a renamed
dialect a renamed text is read as the renamed message, and a renamed message is written as the
renamed text, unless both are refused alike. -/
theorem equivariance
    (s : Renaming) :
    (∀ (r : Reader) (text : String),
      Fault.Mirrors s.message (r.readValue (.str text)).outcome
        ((s.reader r).readValue (.str (s.str text))).outcome) ∧
    ∀ (d : Dialect) (frames : Int) (m : Message),
      Fault.Mirrors s.str (d.serializeOnStack frames m.toValue).outcome
        ((s.dialect d).serializeOnStack frames (Message.toValue (s.message m))).outcome :=
  ⟨s.readValue_mirrors, s.serializeOnStack_mirrors⟩

/-- If the opener and another bracket change places, the other one opens placeholders. -/
example :
    (((swap '\x7b' '(' rfl rfl).reader ⟨.standard, 0, 1⟩).readValue (.str "\x7b(n\x7d")).outcome =
      .ok [.text "\x7b", .placeholder "n" none none none] := by
  decide +kernel

end Renaming

end MessageFormat
