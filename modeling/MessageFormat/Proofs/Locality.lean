import MessageFormat.Proofs.Locality.Readings

/-!
# Locality

A fragment that shows its own end depends on its own characters only (`readFragment_local`): put
between any two texts, the same characters are read as the same fragment, in the same context.

A cursor frames a window of its text, which lies between what is before the cursor and some text
after the window (`Cursor.Frames`). Reading from a cursor is decided by a window if all cursors that
frame it read the same from it (`Cursor.Decided`).
-/

namespace MessageFormat

/-- A fragment that shows its own end: any node but text, a closing tag, or a body together with the
closing tag behind it. -/
def Fragment.Delimited : Fragment → Prop
  | .node n => n.Delimited
  | .closingTag _ => True
  | .body b => b.closed = true
  | .submessages _ => False

namespace Cursor

/-- At the cursor stands a window, in front of another text. -/
structure Frames (c : Cursor) (before window after : List Char) : Prop where
  source_eq : c.source.toList = before ++ window ++ after
  pos_eq : c.pos = before.length

variable {c : Cursor} {before window after : List Char}

theorem Frames.nonneg
    (h : c.Frames before window after) :
    0 ≤ c.pos := by
  rw [h.pos_eq]
  exact Int.natCast_nonneg _

theorem Frames.le_length
    (h : c.Frames before window after) :
    c.pos + window.length ≤ c.length := by
  rw [h.pos_eq, length, h.source_eq]
  simp only [List.length_append]
  omega

theorem Frames.place_eq
    (h : c.Frames before window after) :
    c.place = ⟨window ++ after, []⟩ := by
  rw [place, h.source_eq, h.pos_eq, Int.toNat_natCast, List.append_assoc, List.drop_left]

theorem Frames.sliceTo_eq
    (h : c.Frames before window after) :
    c.sliceTo (c.pos + window.length) = String.ofList window := by
  have hstop : bound c.source.toList.length (c.pos + window.length) =
      before.length + window.length := by
    simp only [bound, h.pos_eq, h.source_eq, List.length_append]
    rw [if_neg (by omega)]
    omega
  have hstart : bound c.source.toList.length c.pos = before.length := by
    simp only [bound, h.pos_eq, h.source_eq, List.length_append]
    rw [if_neg (by omega)]
    omega
  rw [sliceTo, slice, hstop, hstart, h.source_eq, ← List.length_append, List.take_left,
    List.drop_left]

theorem Frames.advance
    {char : Char} (h : c.Frames before (char :: window) after) :
    (c.advance 1).Frames (before ++ [char]) window after := by
  have hle := h.le_length
  refine ⟨by simp [Cursor.advance, h.source_eq], ?_⟩
  have hpos := h.pos_eq
  simp only [Cursor.advance, List.length_append, List.length_cons, List.length_nil] at *
  omega

theorem Frames.current_eq
    {char : Char} (h : c.Frames before (char :: window) after) :
    c.current = .ok char := by
  have hle := h.le_length
  have hpeek : c.place.peek = some char := by
    rw [h.place_eq]
    rfl
  have hat := at_place h.nonneg (by omega)
  have heof : c.isEof = false := by
    simp only [isEof, decide_eq_false_iff_not]
    simp only [List.length_cons] at hle
    omega
  rw [current, heof, hat.charAt_eq hpeek]
  rfl

/-- A cursor in its text frames what lies between it and a later place. -/
theorem exists_frames
    (hstart : 0 ≤ c.pos) (hstop : c.pos ≤ c.length) {rest : List Char}
    (h : c.place.rest = window ++ rest) :
    ∃ before, c.Frames before window rest := by
  refine ⟨c.source.toList.take c.pos.toNat, ?_, ?_⟩
  · rw [List.append_assoc, ← h, place, List.take_append_drop]
  · unfold length at hstop
    rw [List.length_take]
    omega

/-- Between two texts, a cursor frames a window. -/
theorem frames_append
    (first last : String) (window : List Char) :
    Frames ⟨first ++ String.ofList window ++ last, first.toList.length⟩
      first.toList window last.toList :=
  ⟨by simp, rfl⟩

/-- What is read from a cursor is decided by a window: every cursor that frames it reads the same
up to its end. -/
def Decided {α : Type} (read : Cursor → Logged (FromCursor α)) (c : Cursor)
    (result : FromCursor α) : Prop :=
  ∃ before window after, c.Frames before window after ∧
    result.pos = c.pos + window.length ∧
    ∀ c' before' after', Frames c' before' window after' →
      (read c').outcome = .ok ⟨result.value, c'.pos + window.length⟩

/-- What is decided by a window is read from it between any two texts. -/
theorem Decided.between
    {α : Type} {read : Cursor → Logged (FromCursor α)} {value : α} {pos : Int}
    (h : Decided read c ⟨value, pos⟩) (first last : String) :
    (read ⟨first ++ c.sliceTo pos ++ last, first.toList.length⟩).outcome =
      .ok ⟨value, first.toList.length + (pos - c.pos)⟩ := by
  obtain ⟨before, window, after, hframes, rfl, hread⟩ := h
  have hwidth : c.pos + (window.length : Int) - c.pos = window.length := by
    omega
  rw [hframes.sliceTo_eq, hread _ _ _ (frames_append first last window), hwidth]

/-- A rule that takes a local step is decided by its characters. -/
theorem decided_of_local
    {α : Type} {rule : Place → Except Failure (α × Place)} {value : α} {pos : Int}
    (hstart : 0 ≤ c.pos) (hstop : c.pos ≤ c.length)
    (h : (c.readBy rule).outcome = .ok ⟨value, pos⟩)
    (hlocal : ∀ q, rule c.place = .ok (value, q) →
      Local (fun a b => rule a = .ok (value, b)) anyText c.place q) :
    Decided (·.readBy rule) c ⟨value, pos⟩ := by
  obtain ⟨q, hrule, rfl⟩ := readBy_eq_ok hstart h
  obtain ⟨window, hrest, hstep⟩ := hlocal q hrule
  obtain ⟨before, hframes⟩ := exists_frames hstart hstop hrest
  have hleft (p r : Place) (hp : p.rest = window ++ r.rest) :
      (p.left : Int) - r.left = window.length := by
    simp only [Place.left, hp, List.length_append]
    omega
  refine ⟨before, window, q.rest, hframes, by rw [hleft _ _ hrest], ?_⟩
  intro c' before' after' hframes'
  obtain ⟨kept, hstep⟩ := hstep after' [] trivial
  simp only [readBy, ahead_eq hframes'.nonneg, readAhead, hframes'.place_eq, hstep]
  rw [← hleft ⟨window ++ after', []⟩ ⟨after', kept⟩ rfl]
  rfl

/-- Two ways of reading that agree wherever the cursor stands before the same character are decided
by the same window, if it holds a character. -/
theorem Decided.congr
    {α : Type} {read read' : Cursor → Logged (FromCursor α)} {result : FromCursor α}
    (h : Decided read c result)
    (hread : ∀ c', 0 ≤ c'.pos → c'.pos ≤ c'.length →
      (c.pos < result.pos → c'.current = c.current) → (read' c').outcome = (read c').outcome) :
    Decided read' c result := by
  obtain ⟨before, window, after, hframes, hpos, hsame⟩ := h
  refine ⟨before, window, after, hframes, hpos, ?_⟩
  intro c' before' after' hframes'
  have hle := hframes'.le_length
  rw [hread c' hframes'.nonneg (by omega) ?_]
  · exact hsame c' before' after' hframes'
  · intro hlt
    cases window with
    | nil => simp [hpos] at hlt
    | cons char window => rw [hframes'.current_eq, hframes.current_eq]

theorem pos_advance
    (hstop : c.pos < c.length) :
    (c.advance 1).pos = c.pos + 1 := by
  simp only [advance]
  omega

theorem rest_eq_cons
    (hstart : 0 ≤ c.pos) (hstop : c.pos < c.length) :
    ∃ char, c.place.rest = char :: (c.advance 1).place.rest := by
  have hlt : c.pos.toNat < c.source.toList.length := by
    unfold length at hstop
    omega
  have hnext : (c.advance 1).pos.toNat = c.pos.toNat + 1 := by
    rw [pos_advance hstop]
    omega
  refine ⟨c.source.toList[c.pos.toNat], ?_⟩
  simp only [place, hnext]
  exact List.drop_eq_getElem_cons hlt

/-- Behind a character, a window is decided together with it. -/
theorem Decided.cons
    {α : Type} {read : Cursor → Logged (FromCursor α)} {result : FromCursor α}
    (hstart : 0 ≤ c.pos) (hstop : c.pos < c.length)
    (h : Decided read (c.advance 1) result) :
    Decided (fun c => read (c.advance 1)) c result := by
  obtain ⟨before, window, after, hframes, hpos, hsame⟩ := h
  obtain ⟨char, hrest⟩ := rest_eq_cons hstart hstop
  rw [hframes.place_eq, ← List.cons_append] at hrest
  obtain ⟨before', hframes'⟩ := exists_frames hstart (Int.le_of_lt hstop) hrest
  have hnext := hframes.pos_eq.symm.trans (pos_advance hstop)
  refine ⟨before', char :: window, after, hframes', ?_, ?_⟩
  · rw [hpos, pos_advance hstop, List.length_cons]
    omega
  · intro c' first last hc'
    have hadvance := hc'.advance
    rw [hsame _ _ _ hadvance, hadvance.pos_eq, hc'.pos_eq]
    simp only [List.length_append, List.length_cons, List.length_nil, Except.ok.injEq,
      FromCursor.mk.injEq, true_and]
    omega

end Cursor

namespace Context

variable {cx : Context} {c : Cursor} {x : Fragment} {pos : Int}

theorem readingFrom_eq
    (hstart : 0 ≤ c.pos) :
    cx.readingFrom c = { cx with seam := none } := by
  rw [readingFrom, Cursor.seam, if_neg (by omega)]

theorem readMarkupAt_eq
    (hstart : 0 ≤ c.pos) (hstop : c.pos ≤ c.length) :
    cx.readMarkupAt c = c.readBy fun p =>
      (({ cx with seam := none } : Context).readMarkup p).plain.map
        fun r => (Fragment.ofPiece r.1, r.2) := by
  have hafter : c.isBeforeStart = false := by
    simp only [Cursor.isBeforeStart, decide_eq_false_iff_not]
    omega
  have hinside : c.withinText = c := by
    simp only [Cursor.withinText, Int.min_eq_left hstop]
  simp only [readMarkupAt, hafter, hinside, readingFrom_eq hstart]
  rfl

/-- A rule whose answers are what is derived takes a local step where a reading is local. -/
theorem local_of_reads
    {α : Type} {rule : Place → Except Failure (α × Place)} (reading : α → Reading)
    {fragment : α → Fragment} {a : α} {p q : Place}
    (hrule : ∀ p q, Reads cx p (reading a) q → rule p = .ok (a, q))
    (h : Local (fun p q => Reads cx p (reading a) q) ((reading a).Fits q) p q)
    (ha : (reading a).Delimited) :
    Local (fun p q => (rule p).map (fun r => (fragment r.1, r.2)) = .ok (fragment a, q))
      anyText p q := by
  refine (h.mono ?_).weaken fun _ _ => Or.inl ha
  intro p q hreads
  rw [hrule p q hreads]
  rfl

section Within

variable (hstart : 0 ≤ c.pos) (hstop : c.pos < c.length)
  (hkeyword : cx.dialect.closer ∉ cx.dialect.offsetKeyword.toList)
include hstart hstop hkeyword

omit hkeyword in
theorem lt_of_readPlaceholderAt
    (h : (cx.readPlaceholderAt c).outcome = .ok ⟨x, pos⟩) :
    c.pos < pos := by
  have hpos := Cursor.pos_advance hstop
  obtain ⟨q, hrule, rfl⟩ := Cursor.readBy_eq_ok (by omega) h
  obtain ⟨node, hreads, -⟩ := (readPlaceholder_explained _ _).of_map hrule
  have hle := Place.Follows.left_le hreads.follows
  omega

theorem readPlaceholderAt_decided
    (h : (cx.readPlaceholderAt c).outcome = .ok ⟨x, pos⟩) :
    Cursor.Decided cx.readPlaceholderAt c ⟨x, pos⟩ := by
  have hpos := Cursor.pos_advance hstop
  have hlength : (c.advance 1).length = c.length := rfl
  simp only [readPlaceholderAt] at h
  rw [readingFrom_eq (by omega)] at h
  have hdecided := Cursor.decided_of_local (c := c.advance 1) (by omega) (by omega) h ?_
  · refine (hdecided.cons hstart hstop).congr ?_
    intro c' hc' _ _
    have hc'' : 0 ≤ (c'.advance 1).pos := by
      simp only [Cursor.advance, Cursor.length]
      omega
    simp only [readPlaceholderAt]
    rw [readingFrom_eq hc'']
  · intro q hrule
    obtain ⟨node, hreads, rfl⟩ := (readPlaceholder_explained _ _).of_map hrule
    exact local_of_reads .placeholder (fun _ _ h => h.answers)
      (hreads.isLocal rfl hkeyword trivial) trivial

/-- A reference sign is told by itself, and any other character is none anywhere. -/
theorem readElement_decided
    (h : (cx.readElement c).outcome = .ok ⟨x, pos⟩) :
    Cursor.Decided cx.readElement c ⟨x, pos⟩ := by
  obtain ⟨char, hrest⟩ := Cursor.rest_eq_cons hstart hstop
  rw [← List.singleton_append] at hrest
  obtain ⟨before, hframes⟩ := Cursor.exists_frames hstart (Int.le_of_lt hstop) hrest
  cases hreferent : cx.referent with
  | none =>
      have hread : ∀ c, cx.readElement c = cx.readPlaceholderAt c := by
        intro c
        simp only [readElement, hreferent]
      rw [hread] at h
      exact (readPlaceholderAt_decided hstart hstop hkeyword h).congr fun c' _ _ _ => by rw [hread]
  | some id =>
      have hread : ∀ c : Cursor, c.current = .ok char →
          cx.readElement c =
            if char = cx.dialect.reference then
              pure ⟨.node (.reference id), (c.advance 1).pos⟩
            else
              cx.readPlaceholderAt c := by
        intro c hcurrent
        simp only [readElement, hreferent, hcurrent]
      have hcurrent := hframes.current_eq
      rw [hread c hcurrent] at h
      by_cases href : char = cx.dialect.reference
      · rw [if_pos href] at h
        cases h
        refine ⟨before, [char], _, hframes, Cursor.pos_advance hstop, ?_⟩
        intro c' first last hframes'
        rw [hread c' hframes'.current_eq, if_pos href, hframes'.advance.pos_eq, hframes'.pos_eq]
        simp [pure]
      · rw [if_neg href] at h
        refine (readPlaceholderAt_decided hstart hstop hkeyword h).congr ?_
        intro c' _ _ hsame
        rw [hread c' ((hsame (lt_of_readPlaceholderAt hstart hstop h)).trans hcurrent),
          if_neg href]

/-- What shows its own end is decided by its characters. -/
theorem readFragment_decided
    {kind : Fragment.Kind} (h : (cx.readFragment kind c).outcome = .ok ⟨x, pos⟩)
    (hx : kind = .placeholder ∨ x.Delimited) :
    Cursor.Decided (cx.readFragment kind) c ⟨x, pos⟩ := by
  cases kind with
  | placeholder => exact readElement_decided hstart hstop hkeyword h
  | body =>
      simp only [readFragment, readingFrom_eq hstart] at h
      refine (Cursor.decided_of_local hstart (Int.le_of_lt hstop) h ?_).congr ?_
      · intro q hrule
        obtain ⟨body, hreads, rfl⟩ := (readBody_explained _ _).of_map hrule
        exact local_of_reads .body (fun _ _ h => h.answers)
          (hreads.isLocal rfl hkeyword trivial) (hx.resolve_left (by decide))
      · intro c' hc' _ _
        simp only [readFragment, readingFrom_eq hc']
  | submessages =>
      obtain ⟨q, hrule, -⟩ := Cursor.readBy_eq_ok hstart h
      obtain ⟨subs, -, rfl⟩ := (readSubmessages_explained _ _).of_map hrule
      exact (hx.resolve_left (by decide)).elim
  | markup =>
      simp only [readFragment, readMarkupAt_eq hstart (Int.le_of_lt hstop)] at h
      refine (Cursor.decided_of_local hstart (Int.le_of_lt hstop) h ?_).congr ?_
      · intro q hrule
        obtain ⟨piece, hreads, rfl⟩ := (readMarkup_explained _ _).of_map hrule
        obtain ⟨char, hrest⟩ := Cursor.rest_eq_cons hstart hstop
        have hpeek : c.place.peek = some char := by
          rw [Place.peek, hrest, List.head?_cons]
        have hpiece : piece.Delimited := by
          cases piece with
          | node n => exact hx.resolve_left (by decide)
          | closingTag name => trivial
        exact local_of_reads .markup (fun _ _ h => h.answers)
          (hreads.isLocal rfl hkeyword ⟨char, hpeek⟩) hpiece
      · intro c' hc' hle _
        simp only [readFragment, readMarkupAt_eq hc' hle]

end Within

/-- A placeholder, a reference or a tag depends only on its own characters, and so does every other
fragment that shows its own end: between any two texts, it is read in the same way. The keyword of
the offset clause must not hold the closer, because it is looked for as a whole. -/
theorem readFragment_local
    (cx : Context) (kind : Fragment.Kind) (c : Cursor) {x : Fragment} {pos : Int}
    (hstart : 0 ≤ c.pos) (hstop : c.pos < c.length)
    (hkeyword : cx.dialect.closer ∉ cx.dialect.offsetKeyword.toList)
    (h : (cx.readFragment kind c).outcome = .ok ⟨x, pos⟩)
    (hx : kind = .placeholder ∨ x.Delimited) (first last : String) :
    (cx.readFragment kind ⟨first ++ c.sliceTo pos ++ last, first.toList.length⟩).outcome =
      .ok ⟨x, first.toList.length + (pos - c.pos)⟩ :=
  (readFragment_decided hstart hstop hkeyword h hx).between first last

/-- A number with an offset and a tag in it is read in the same way inside of a tag, although its
reference signs and its offset keyword could mean something else there. -/
theorem readFragment_local_number :
    let cx : Context := { dialect := .standard, limit := 100 }
    let c : Cursor := ⟨"x\x7bn, plural, offset:1 other\x7b<b>#</b>\x7d\x7dy", 1⟩
    0 ≤ c.pos ∧ c.pos < c.length ∧
      cx.dialect.closer ∉ cx.dialect.offsetKeyword.toList ∧
      ∃ x, (cx.readFragment .placeholder c).outcome = .ok ⟨x, 38⟩ ∧
        (cx.readFragment .placeholder
          ⟨"<i>" ++ c.sliceTo 38 ++ "'</i>", ("<i>".toList.length : Int)⟩).outcome =
            .ok ⟨x, ("<i>".toList.length : Int) + (38 - c.pos)⟩ := by
  intro cx c
  have hstart : 0 ≤ c.pos := by
    decide
  have hstop : c.pos < c.length := by
    decide
  have hkeyword : cx.dialect.closer ∉ cx.dialect.offsetKeyword.toList := by
    decide
  have hpos : (cx.readFragment .placeholder c).outcome.map (·.pos) = .ok 38 := by
    decide +kernel
  refine ⟨hstart, hstop, hkeyword, ?_⟩
  cases hread : (cx.readFragment .placeholder c).outcome with
  | error fault =>
      rw [hread] at hpos
      cases hpos
  | ok result =>
      obtain ⟨x, pos⟩ := result
      rw [hread] at hpos
      obtain rfl : pos = 38 := Except.ok.inj hpos
      exact ⟨x, rfl,
        cx.readFragment_local .placeholder c hstart hstop hkeyword hread (Or.inl rfl) "<i>" "'</i>"⟩

end Context

end MessageFormat
