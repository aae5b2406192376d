import MessageFormat.Proofs.Positions

/-!
# Carets under positions

Reports show the lines around a position with their numbers (`Report.surroundings_eq`), and
diagnostics show the line of the position alone (`Renderer.excerptLines_eq`). In both, the line
stands directly above a caret, and the caret stands as far behind the margin as the column says,
whatever the width of the number in the margin. Together with the line and the column that
belong to the position (`Located`), the caret is under the character at the position
(`Cursor.caret_under_position`).
-/

namespace MessageFormat

/-- Blanks as wide as a margin. -/
def blankMargin (margin : String) : String :=
  String.ofList (List.replicate margin.toList.length ' ')

/-- A caret under a column of a line, behind a margin. -/
def caretBehind (margin : String) (column : Nat) : String :=
  margin ++ String.ofList (List.replicate (column - 1) ' ') ++ "^"

/-- The lines of a text and their numbers, counted from 1. -/
def numberedLines (text : String) : List (String × Nat) :=
  (linesOf text).zipIdx 1

namespace Report

/-- A line behind its number. -/
def numbered (entry : String × Nat) : String :=
  gutter entry.2 ++ entry.1

/-- The numbers of some of the lines are counted up from that of the first. -/
theorem numbersFrom_eq
    (lines : List String) {first last : Nat} (hlast : last ≤ lines.length) :
    numbersFrom ((first : Int) + 1) last =
      (((lines.zipIdx 1).take last).drop first).map fun entry => (entry.2 : Int) := by
  apply List.ext_getElem
  · simp [numbersFrom]
    omega
  · intro i hi hi'
    simp [numbersFrom]
    omega

/-- Under the line of the position there is a caret. -/
theorem contextLine_eq
    {lines : List String} {entry : String × Nat} (hentry : entry ∈ lines.zipIdx 1)
    (line column : Nat) :
    contextLine lines line column entry.2 =
      if entry.2 = line then
        [numbered entry, caretBehind (blankMargin (gutter line)) column]
      else
        [numbered entry] := by
  obtain ⟨hpos, hshown⟩ := List.mk_mem_zipIdx_iff_le_and_getElem?_sub.mp hentry
  have hindex : ((entry.2 : Int) - 1).toNat = entry.2 - 1 := by omega
  have hindent : ((column : Int) - 1).toNat = column - 1 := by omega
  simp only [contextLine, hindex, hshown, hindent, Int.natCast_inj, numbered, Option.getD_some]
  split
  · next heq =>
      simp [heq, caretBehind, blankMargin, ← String.ofList_append, List.replicate_append_replicate]
  · rfl

theorem number_le_of_mem_take
    {lines : List String} {count : Nat} {entry : String × Nat}
    (hentry : entry ∈ (lines.zipIdx 1).take count) :
    entry.2 ≤ count := by
  obtain ⟨i, hi⟩ := List.mem_iff_getElem?.mp hentry
  rw [List.getElem?_take] at hi
  split at hi
  · next hlt =>
      rw [List.getElem?_zipIdx] at hi
      obtain ⟨shown, -, rfl⟩ := Option.map_eq_some_iff.mp hi
      dsimp only
      omega
  · cases hi

theorem lt_number_of_mem_drop
    {lines : List String} {count : Nat} {entry : String × Nat}
    (hentry : entry ∈ (lines.zipIdx 1).drop count) :
    count < entry.2 := by
  obtain ⟨i, hi⟩ := List.mem_iff_getElem?.mp hentry
  rw [List.getElem?_drop, List.getElem?_zipIdx] at hi
  obtain ⟨shown, -, rfl⟩ := Option.map_eq_some_iff.mp hi
  dsimp only
  omega

/-- Lines other than that of the position stand there without a caret. -/
theorem flatMap_contextLine
    {lines : List String} {line : Nat} {others : List (String × Nat)}
    (hothers : ∀ entry ∈ others, entry ∈ lines.zipIdx 1 ∧ entry.2 ≠ line) (column : Nat) :
    (others.flatMap fun entry => contextLine lines line column entry.2) = others.map numbered := by
  rw [List.map_eq_flatMap, List.flatMap_def, List.flatMap_def]
  refine congrArg List.flatten (List.map_congr_left fun entry hentry => ?_)
  rw [contextLine_eq (hothers entry hentry).1, if_neg (hothers entry hentry).2]

/-- The lines around a position are so many of those above it, its own with the caret, and so
many of those below. -/
theorem surroundings_eq
    {text : String} {line column : Nat} {shown : String} (hline : 1 ≤ line)
    (hshown : (linesOf text)[line - 1]? = some shown) (contextLines : Nat) :
    surroundings (linesOf text) line column contextLines =
      (((numberedLines text).take (line - 1)).drop (line - 1 - contextLines)).map numbered ++
        [gutter line ++ shown, caretBehind (blankMargin (gutter line)) column] ++
        (((numberedLines text).drop line).take contextLines).map numbered := by
  obtain ⟨hlt, -⟩ := List.getElem?_eq_some_iff.mp hshown
  have hfirst : max 1 ((line : Int) - contextLines) =
      ((line - 1 - contextLines : Nat) : Int) + 1 := by
    omega
  have hlast : min ((linesOf text).length : Int) (line + contextLines) =
      (min (linesOf text).length (line + contextLines) : Nat) := by
    omega
  have hentry : (numberedLines text)[line - 1]? = some (shown, line) := by
    rw [numberedLines, List.getElem?_zipIdx, hshown, Option.map_some, Nat.add_sub_cancel' hline]
  have hdrop : (numberedLines text).drop (line - 1) =
      (shown, line) :: (numberedLines text).drop line := by
    rw [List.drop_eq_getElem?_toList_append, hentry, Nat.sub_add_cancel hline]
    rfl
  -- The lines that are shown, cut at the line of the position.
  have hparts : ((numberedLines text).take (min (linesOf text).length (line + contextLines))).drop
        (line - 1 - contextLines) =
      ((numberedLines text).take (line - 1)).drop (line - 1 - contextLines) ++
        (shown, line) :: ((numberedLines text).drop line).take contextLines := by
    have htake : (numberedLines text).take (min (linesOf text).length (line + contextLines)) =
        (numberedLines text).take (line - 1 + (1 + contextLines)) := by
      rw [List.take_eq_take_iff, numberedLines, List.length_zipIdx]
      omega
    rw [htake, List.take_add, List.drop_append_of_le_length (by simp [numberedLines]; omega),
      hdrop, Nat.add_comm 1, List.take_succ_cons]
  rw [surroundings, hfirst, hlast, numbersFrom_eq _ (Nat.min_le_left _ _), List.flatMap_map]
  rw [numberedLines] at hparts hentry ⊢
  rw [hparts, List.flatMap_append, List.flatMap_cons, contextLine_eq (List.mem_of_getElem? hentry),
    if_pos rfl, flatMap_contextLine, flatMap_contextLine, numbered, List.append_assoc]
  · intro entry hmem
    have hdrop := List.mem_of_mem_take hmem
    exact ⟨List.mem_of_mem_drop hdrop, Nat.ne_of_gt (lt_number_of_mem_drop hdrop)⟩
  · intro entry hmem
    have htake := List.mem_of_mem_drop hmem
    have hle := number_le_of_mem_take htake
    exact ⟨List.mem_of_mem_take htake, by omega⟩

/-- A report shows the lines around the position below its message. -/
theorem withContext_eq
    {report : Report} {span : Span} {text : String} {line column : Nat} {shown : String}
    (hne : text ≠ "") (hsource : report.source = text) (hspan : report.span = some span)
    (hline : span.line = line) (hcolumn : span.column = column)
    (hpos : 1 ≤ line) (hshown : (linesOf text)[line - 1]? = some shown) (contextLines : Nat) :
    report.withContext contextLines =
      String.intercalate "\n"
        ([decimal line ++ ":" ++ decimal column ++ ": " ++ report.message, ""] ++
          (((numberedLines text).take (line - 1)).drop (line - 1 - contextLines)).map numbered ++
          [gutter line ++ shown, caretBehind (blankMargin (gutter line)) column] ++
          (((numberedLines text).drop line).take contextLines).map numbered) := by
  have hnonempty : text.isEmpty = false := by
    simpa using hne
  simp only [withContext, hspan, hsource, hnonempty, hline, hcolumn, surroundings_eq hpos hshown]
  simp

end Report

namespace Renderer

/-- The margin of a line in an excerpt, around the number of the line or as many blanks. -/
def margin (label : String) : String :=
  "  " ++ label ++ " | "

theorem length_margin_blank
    (label : String) :
    (margin (blankMargin label)).toList.length = (margin label).toList.length := by
  simp [margin, blankMargin]

/-- With the text, three more lines are shown after the first two: an empty one, the line of the
position, and the caret. -/
theorem excerptLines_eq
    {diagnostic : Diagnostic} {span : Span} {text : String} {line column : Nat} {shown : String}
    (hspan : diagnostic.span = some span) (hline : span.line = line)
    (hcolumn : span.column = column) (hpos : 1 ≤ line)
    (hshown : (linesOf text)[line - 1]? = some shown) :
    excerptLines {} diagnostic (some text) =
      (excerptLines {} diagnostic none).take 2 ++
        ["  " ++ blankMargin (decimal line) ++ " |",
          margin (decimal line) ++ shown,
          caretBehind (margin (blankMargin (decimal line))) column] ++
        (excerptLines {} diagnostic none).drop 2 := by
  have hindex : ((line : Int) - 1).toNat = line - 1 := by omega
  have hindent : ((column : Int) - 1).toNat = column - 1 := by omega
  have hpointer : pointer {} span text =
      ["  " ++ blankMargin (decimal line) ++ " |",
        margin (decimal line) ++ shown,
        caretBehind (margin (blankMargin (decimal line))) column] := by
    simp only [pointer, hline, hcolumn, hindex, hindent, hshown, clip]
    rfl
  simp only [excerptLines, hspan, Option.elim_some, Option.elim_none, hpointer]
  simp

end Renderer

namespace Cursor

/-- The line and the column of a position in a text determine it, and both ways of showing a
fault that is told there put the caret under it. The line and the column belong to the position,
are those of every span that starts there, and are later for later positions. A report shows the
line directly above the caret, between lines of the text that are next to it, and a diagnostic
shows the same line above the caret; both carets stand behind as wide a margin as the line, and
as far from it as the column says. -/
theorem caret_under_position
    (text : String) (hne : text ≠ "") (p : Nat) (hp : p ≤ text.toList.length) :
    ∃ (line column : Nat) (shown : String),
      Cursor.lineColumn ⟨text, p⟩ = ((line : Int), (column : Int)) ∧
      Located text p line column shown ∧
      (∀ q : Nat, p < q → q ≤ text.toList.length →
        Precedes (Cursor.lineColumn ⟨text, p⟩) (Cursor.lineColumn ⟨text, q⟩)) ∧
      (∀ stop : Option Int, ∃ last,
        Cursor.span ⟨text, p⟩ stop = .ok { start := p, stop := last, line, column }) ∧
      ∀ (report : Report) (diagnostic : Diagnostic) (span : Span),
        report.source = text → report.diagnostic = some diagnostic → diagnostic.span = some span →
        span.line = line → span.column = column →
        (∀ contextLines : Nat,
          report.withContext contextLines = String.intercalate "\n"
            ([decimal line ++ ":" ++ decimal column ++ ": " ++ report.message, ""] ++
              (((numberedLines text).take (line - 1)).drop (line - 1 - contextLines)).map
                Report.numbered ++
              [Report.gutter line ++ shown,
                caretBehind (blankMargin (Report.gutter line)) column] ++
              (((numberedLines text).drop line).take contextLines).map Report.numbered)) ∧
        diagnostic.excerpt (some text) = String.intercalate "\n"
          ((Renderer.excerptLines {} diagnostic none).take 2 ++
            ["  " ++ blankMargin (decimal line) ++ " |",
              Renderer.margin (decimal line) ++ shown,
              caretBehind (Renderer.margin (blankMargin (decimal line))) column] ++
            (Renderer.excerptLines {} diagnostic none).drop 2) ∧
        (Renderer.margin (blankMargin (decimal line))).toList.length =
          (Renderer.margin (decimal line)).toList.length := by
  obtain ⟨line, column, shown, hplace, hlocated⟩ := lineColumn_located hp
  have hpos := hlocated.line_pos
  refine ⟨line, column, shown, hplace, hlocated, fun q => lineColumn_precedes, fun stop => ?_, ?_⟩
  · have hcolumn := hlocated.column_pos
    refine ⟨max (stop.getD (if Cursor.isEof ⟨text, p⟩ then (p : Int) else p + 1)) p, ?_⟩
    simp only [span, hplace, Span.make]
    rw [if_neg (by omega), if_neg (by omega), if_neg (by omega), if_neg (by omega)]
  · intro report diagnostic span hsource hdiagnostic hspan hline hcolumn
    have hreport : report.span = some span := by
      rw [Report.span, hdiagnostic, Option.bind_some, hspan]
    refine ⟨?_, ?_, Renderer.length_margin_blank _⟩
    · exact Report.withContext_eq hne hsource hreport hline hcolumn hpos hlocated.shown_eq
    · rw [Diagnostic.excerpt, Renderer.excerpt,
        Renderer.excerptLines_eq hspan hline hcolumn hpos hlocated.shown_eq]

/-- What is told where a closer is missed in the second line of a text. -/
def missedCloser : Diagnostic :=
  .expectedToken "\x7d" (some "!") ⟨5, 6, 2, 4⟩

/-- The caret stands under the exclamation mark. -/
theorem caret_under_position_secondLine :
    "a\n\x7bn !" ≠ "" ∧ 5 ≤ "a\n\x7bn !".toList.length ∧
      (Report.ofDiagnostic .expectedToken missedCloser "a\n\x7bn !").withContext 1 =
        String.intercalate "\n"
          ["2:4: " ++ missedCloser.message, "", "   1 | a", "   2 | \x7bn !", "          ^"] := by
  refine ⟨by decide, by decide, ?_⟩
  obtain ⟨line, column, shown, hplace, hlocated, -, -, hreports⟩ :=
    caret_under_position "a\n\x7bn !" (by decide) 5 (by decide)
  have hsecond : Cursor.lineColumn ⟨"a\n\x7bn !", (5 : Nat)⟩ = (2, 4) := by
    decide +kernel
  rw [hsecond, Prod.mk.injEq] at hplace
  obtain rfl : line = 2 := by omega
  obtain rfl : column = 4 := by omega
  obtain rfl : "\x7bn !" = shown := Option.some.inj hlocated.shown_eq
  have hcontext := (hreports (.ofDiagnostic .expectedToken missedCloser "a\n\x7bn !") missedCloser
    ⟨5, 6, 2, 4⟩ rfl rfl rfl rfl rfl).1 1
  exact hcontext.trans (congrArg (String.intercalate "\n") rfl)

end Cursor

end MessageFormat
