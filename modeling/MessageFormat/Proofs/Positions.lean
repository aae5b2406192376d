import MessageFormat.Proofs.Locations

/-!
# Lines, columns and positions

A position cuts a text in two. In front of it there are whole lines, each ended by a line feed,
and the part of a line without one (`exists_ended`); behind it that line goes on up to the next
line feed, and more lines may follow (`Cursor.exists_cut`). The line and the column of the
position are counted off from the parts in front of it, so they determine it (`Located`), and a
later position has a later line or a later column in the same line
(`Cursor.lineColumn_precedes`).
-/

namespace MessageFormat

/-- Lines one after the other, each ended by a line feed. -/
def ended (lines : List (List Char)) : List Char :=
  lines.flatMap (· ++ ['\n'])

theorem ended_cons
    (line : List Char) (lines : List (List Char)) :
    ended (line :: lines) = line ++ '\n' :: ended lines := by
  simp [ended]

/-- The number of characters that lines take up, with a line feed behind each. -/
def extent : List String → Nat
  | [] => 0
  | line :: below => line.toList.length + 1 + extent below

theorem extent_map
    (lines : List (List Char)) :
    extent (lines.map String.ofList) = (ended lines).length := by
  induction lines with
  | nil => rfl
  | cons line below ih =>
      rw [List.map_cons, extent, ih, ended_cons, List.length_append, List.length_cons,
        String.toList_ofList]
      omega

/-- A text is made of lines that are ended, and a last one that is not. -/
theorem exists_ended
    (text : List Char) :
    ∃ above line, text = ended above ++ line ∧ (∀ l ∈ above, '\n' ∉ l) ∧ '\n' ∉ line := by
  induction text with
  | nil => exact ⟨[], [], rfl, nofun, List.not_mem_nil⟩
  | cons c rest ih =>
      obtain ⟨above, line, rfl, habove, hline⟩ := ih
      by_cases hc : c = '\n'
      · subst hc
        refine ⟨[] :: above, line, by simp [ended_cons], ?_, hline⟩
        simpa using habove
      · cases above with
        | nil => exact ⟨[], c :: line, rfl, nofun, by simp [Ne.symm hc, hline]⟩
        | cons first above =>
            refine ⟨(c :: first) :: above, line, by simp [ended_cons], ?_, hline⟩
            simpa [Ne.symm hc] using habove

/-- The first line goes up to the first line feed. -/
theorem splitLines_eq_cons
    (text : List Char) :
    ∃ below, splitLines text = text.takeWhile (· ≠ '\n') :: below := by
  induction text with
  | nil => exact ⟨[], rfl⟩
  | cons c rest ih =>
      obtain ⟨below, hrest⟩ := ih
      by_cases hc : c = '\n'
      · exact ⟨splitLines rest, by simp [splitLines, hc]⟩
      · exact ⟨below, by simp [splitLines, hc, hrest]⟩

theorem splitLines_line
    {line : List Char} (hline : '\n' ∉ line) (rest : List Char) :
    splitLines (line ++ '\n' :: rest) = line :: splitLines rest := by
  induction line with
  | nil => simp [splitLines]
  | cons c line ih =>
      rw [List.mem_cons, not_or] at hline
      simp [splitLines, Ne.symm hline.1, ih hline.2]

/-- Lines that are ended are split off. -/
theorem splitLines_ended
    {above : List (List Char)} (habove : ∀ l ∈ above, '\n' ∉ l) (rest : List Char) :
    splitLines (ended above ++ rest) = above ++ splitLines rest := by
  induction above with
  | nil => rfl
  | cons line above ih =>
      rw [List.forall_mem_cons] at habove
      rw [ended_cons, List.append_assoc, List.cons_append, splitLines_line habove.1, ih habove.2,
        List.cons_append]

theorem takeWhile_line
    {line : List Char} (hline : '\n' ∉ line) (rest : List Char) :
    (line ++ rest).takeWhile (· ≠ '\n') = line ++ rest.takeWhile (· ≠ '\n') := by
  refine List.takeWhile_append_of_pos fun c hc => ?_
  simpa using fun heq : c = '\n' => hline (heq ▸ hc)

/-- A text without a line feed goes on with the last line. -/
theorem lastLine_append
    (text : List Char) {line : List Char} (hline : '\n' ∉ line) :
    lastLine (text ++ line) = lastLine text ++ line := by
  have hreverse : '\n' ∉ line.reverse := by simpa using hline
  rw [lastLine, List.reverse_append, takeWhile_line hreverse, List.reverse_append,
    List.reverse_reverse, lastLine]

/-- Behind a line feed a new line starts. -/
theorem lastLine_eq_nil
    {text : List Char} (h : text = [] ∨ text.getLast? = some '\n') :
    lastLine text = [] := by
  rcases h with rfl | hfeed
  · rfl
  · obtain ⟨front, rfl⟩ := List.getLast?_eq_some_iff.mp hfeed
    simp [lastLine]

theorem lastLine_ended
    (above : List (List Char)) :
    lastLine (ended above) = [] := by
  refine lastLine_eq_nil ?_
  rcases List.eq_nil_or_concat above with rfl | ⟨front, last, rfl⟩
  · exact Or.inl rfl
  · exact Or.inr (by simp [ended])

theorem count_ended
    {above : List (List Char)} (habove : ∀ l ∈ above, '\n' ∉ l) {line : List Char}
    (hline : '\n' ∉ line) :
    (ended above ++ line).count '\n' = above.length := by
  have hlength := splitLines_length (ended above)
  have hsplit := splitLines_ended habove []
  rw [List.append_nil] at hsplit
  rw [hsplit, List.length_append] at hlength
  rw [List.count_append, List.count_eq_zero_of_not_mem hline]
  simpa [splitLines] using hlength.symm

/-- One place comes before another: in an earlier line, or earlier in the same line. -/
def Precedes (place later : Int × Int) : Prop :=
  place.1 < later.1 ∨ place.1 = later.1 ∧ place.2 < later.2

/-- A line and a column, counted from 1, belong to a position of a text: the lines above and the
part of the line in front of the column are what lies before the position, and the character at
the position is in the line, unless the line ends there. -/
structure Located (text : String) (p line column : Nat) (shown : String) : Prop where
  line_pos : 1 ≤ line
  line_le : line ≤ (linesOf text).length
  shown_eq : (linesOf text)[line - 1]? = some shown
  column_pos : 1 ≤ column
  column_le : column ≤ shown.toList.length + 1
  extent_eq : extent ((linesOf text).take (line - 1)) + (column - 1) = p
  char_eq : ∀ c, text.toList[p]? = some c → c ≠ '\n' → shown.toList[column - 1]? = some c

namespace Cursor

variable {text : String} {p : Nat}

/-- The line is counted off by the line feeds before the cursor, and the column by the
characters behind the last of them. -/
theorem lineColumn_take
    (hp : p ≤ text.toList.length) :
    Cursor.lineColumn ⟨text, p⟩ =
      (((text.toList.take p).count '\n' : Int) + 1,
        ((lastLine (text.toList.take p)).length : Int) + 1) := by
  obtain ⟨before, line, hsplit, hline, hfeed, hcolumn⟩ := lineColumn_eq hp
  have hlast : lastLine (text.toList.take p) = line := by
    rw [hsplit, lastLine_append before hline, lastLine_eq_nil hfeed, List.nil_append]
  have hlength := congrArg List.length hsplit
  rw [List.length_take_of_le hp, List.length_append] at hlength
  rw [hcolumn, hlast, hlength]
  refine Prod.ext rfl ?_
  dsimp only
  omega

/-- A position cuts a text behind some lines and inside of the next one. -/
theorem exists_cut
    (hp : p ≤ text.toList.length) :
    ∃ above line below,
      text.toList.take p = ended above ++ line ∧
        splitLines text.toList =
          above ++ (line ++ (text.toList.drop p).takeWhile (· ≠ '\n')) :: below ∧
        Cursor.lineColumn ⟨text, p⟩ = ((above.length : Int) + 1, (line.length : Int) + 1) := by
  obtain ⟨above, line, hcut, habove, hline⟩ := exists_ended (text.toList.take p)
  obtain ⟨below, hbelow⟩ := splitLines_eq_cons (line ++ text.toList.drop p)
  refine ⟨above, line, below, hcut, ?_, ?_⟩
  · rw [takeWhile_line hline] at hbelow
    rw [← hbelow, ← splitLines_ended habove, ← List.append_assoc, ← hcut, List.take_append_drop]
  · rw [lineColumn_take hp, hcut, count_ended habove hline, lastLine_append _ hline,
      lastLine_ended, List.nil_append]

/-- A position inside of a text has a line and a column that belong to it. -/
theorem lineColumn_located
    (hp : p ≤ text.toList.length) :
    ∃ (line column : Nat) (shown : String),
      Cursor.lineColumn ⟨text, p⟩ = ((line : Int), (column : Int)) ∧
        Located text p line column shown := by
  obtain ⟨above, line, below, hcut, hsplit, hplace⟩ := exists_cut hp
  have hlength := congrArg List.length hcut
  rw [List.length_take_of_le hp, List.length_append] at hlength
  refine ⟨above.length + 1, line.length + 1,
    String.ofList (line ++ (text.toList.drop p).takeWhile (· ≠ '\n')), by simpa using hplace, ?_⟩
  have hlines : linesOf text = above.map String.ofList ++
      String.ofList (line ++ (text.toList.drop p).takeWhile (· ≠ '\n')) ::
        below.map String.ofList := by
    rw [linesOf, hsplit, List.map_append, List.map_cons]
  constructor
  case line_pos => exact Nat.le_add_left _ _
  case line_le => simp [hlines]
  case shown_eq => simp [hlines]
  case column_pos => exact Nat.le_add_left _ _
  case column_le => simp
  case extent_eq =>
    have habove : (linesOf text).take above.length = above.map String.ofList := by simp [hlines]
    rw [Nat.add_sub_cancel, habove, Nat.add_sub_cancel, extent_map, hlength]
  case char_eq =>
    intro c hchar hc
    have hdrop : text.toList.drop p = c :: text.toList.drop (p + 1) := by
      obtain ⟨hlt, rfl⟩ := List.getElem?_eq_some_iff.mp hchar
      exact List.drop_eq_getElem_cons hlt
    simp [hdrop, hc]

/-- A later position has a later line, or a later column in the same line. -/
theorem lineColumn_precedes
    {q : Nat} (hlt : p < q) (hq : q ≤ text.toList.length) :
    Precedes (Cursor.lineColumn ⟨text, p⟩) (Cursor.lineColumn ⟨text, q⟩) := by
  have hp : p ≤ text.toList.length := by omega
  obtain ⟨between, hbetween⟩ : text.toList.take p <+: text.toList.take q :=
    List.take_prefix_take_left (Nat.le_of_lt hlt)
  have hlength := congrArg List.length hbetween
  rw [List.length_append, List.length_take_of_le hp, List.length_take_of_le hq] at hlength
  rw [lineColumn_take hp, lineColumn_take hq, ← hbetween, List.count_append]
  by_cases hfeed : '\n' ∈ between
  · left
    have hcount := List.count_pos_iff.mpr hfeed
    dsimp only
    omega
  · right
    rw [List.count_eq_zero_of_not_mem hfeed, lastLine_append _ hfeed, List.length_append]
    dsimp only
    omega

end Cursor

end MessageFormat
