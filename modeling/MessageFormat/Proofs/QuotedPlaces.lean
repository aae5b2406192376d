import MessageFormat.Proofs.Exits
import MessageFormat.Proofs.Quoting

/-!
# Where text is quoted

A message holds quoted text in bodies, in headers, in selectors and in the names of tags. For each
place this module lists the characters that writing quotes there (`TextPlace.specials`), and shows
that reading from a cursor takes such a text back as it was, up to the first character after it that
ends text there (`Cursor.readText_quoted`).

The lists say outright what the mode of a place says by its flags (`TextPlace.specials_contains`).
-/

namespace MessageFormat

/-- The places of a message that hold quoted text. -/
inductive TextPlace where
  | body
  /-- A body in which the reference sign stands for the number. -/
  | numericBody
  /-- The id or the type of a placeholder. -/
  | word
  | selector
  | tagName

namespace TextPlace

/-- How text is read in a place. -/
def mode : TextPlace → Mode
  | body => .body
  | numericBody => .numericBody
  | word => .word
  | selector => .selector
  | tagName => .tagName

/-- How text is written for a place: a selector as an id is, although separators do not end it. -/
def writtenMode : TextPlace → Mode
  | selector => .word
  | k => k.mode

/-- The characters that are quoted in every text. -/
def textSpecials (d : Dialect) : List Char :=
  [d.opener, d.closer] ++ if d.tagsAllowed then [d.tagOpener] else []

/-- The characters that are quoted in a header. -/
def headerSpecials (d : Dialect) : List Char :=
  textSpecials d ++ blanks ++ [d.separator]

/-- The characters that are quoted in a place. -/
def specials (d : Dialect) : TextPlace → List Char
  | body => textSpecials d
  | numericBody => textSpecials d ++ [d.reference]
  | word => headerSpecials d
  | selector => headerSpecials d
  | tagName => headerSpecials d ++ [d.tagCloser, d.tagSlash]

/-- A dialect has tags to name, and no blank stands for the quote where blanks end a text. -/
def Serves (d : Dialect) : TextPlace → Prop
  | body => True
  | numericBody => True
  | word => isBlank d.quote = false
  | selector => isBlank d.quote = false
  | tagName => d.tagsAllowed = true ∧ isBlank d.quote = false

variable {d : Dialect}

theorem mem_textSpecials_iff
    {c : Char} :
    c ∈ textSpecials d ↔ d.isMark .body c = true := by
  cases htags : d.tagsAllowed <;>
    simp [textSpecials, Dialect.isMark, Mode.body, htags, or_assoc]

theorem mem_headerSpecials_iff
    {c : Char} :
    c ∈ headerSpecials d ↔ d.stops .word c = true := by
  have hmark : d.isMark .word = d.isMark .body := rfl
  simp only [headerSpecials, List.mem_append, mem_textSpecials_iff, Dialect.stops, hmark]
  simpa [isBlank, Mode.word] using or_right_comm

/-- What is listed for a place is what writing quotes there. -/
theorem mem_specials_iff
    {k : TextPlace} (hserves : k.Serves d) {c : Char} :
    c ∈ k.specials d ↔ d.stops k.writtenMode c = true := by
  cases k with
  | body => simp [specials, mem_textSpecials_iff, writtenMode, mode, Dialect.stops, Mode.body]
  | numericBody =>
      simp [specials, mem_textSpecials_iff, writtenMode, mode, Dialect.stops, Dialect.isMark,
        Mode.body, Mode.numericBody]
  | word => exact mem_headerSpecials_iff
  | selector => exact mem_headerSpecials_iff
  | tagName =>
      simp only [specials, List.mem_append, mem_headerSpecials_iff]
      simp [writtenMode, mode, Dialect.stops, Dialect.isMark, Mode.word, Mode.tagName, hserves.1]
      grind

theorem specials_contains
    {k : TextPlace} (hserves : k.Serves d) :
    (k.specials d).contains = d.stops k.writtenMode := by
  funext c
  rw [Bool.eq_iff_iff, List.contains_iff_mem, mem_specials_iff hserves]

/-- What is listed for a place fits how it is read. -/
theorem covers
    {k : TextPlace} (hserves : k.Serves d) :
    d.Covers k.mode (k.specials d).contains := by
  rw [specials_contains hserves]
  cases k with
  | body => exact d.covers_body
  | numericBody => exact d.covers_numericBody
  | word => exact d.covers_word hserves
  | selector => exact d.covers_selector hserves
  | tagName => exact d.covers_tagName hserves.2

end TextPlace

/-- Reading undoes quoting in every place: of a text that is quoted there and followed by nothing or
by a character that ends it, exactly the text is read, and exactly its quotation is taken. What is
quoted is what writing quotes there. -/
theorem Cursor.readText_quoted
    {d : Dialect} {k : TextPlace} (hserves : k.Serves d) (text after : String)
    (hafter : d.EndsBefore k.mode after.toList) :
    let quoted := Quoted.spell d.quote (k.specials d).contains text.toList
    d.spell k.writtenMode text = String.ofList quoted ∧
      (Cursor.readText ⟨String.ofList quoted ++ after, 0⟩ d k.mode).outcome =
        .ok ⟨text, quoted.length⟩ := by
  intro quoted
  constructor
  · rw [Dialect.spell, ← TextPlace.specials_contains hserves]
  · have hread := Quoted.scan_spell (TextPlace.covers hserves) text.toList hafter
    let c : Cursor := ⟨String.ofList quoted ++ after, 0⟩
    have hplace : c.place = ⟨quoted ++ after.toList, []⟩ := by
      simp [c, Cursor.place]
    have hscan : c.place.scan d k.mode = (text, ⟨after.toList, []⟩) := by
      rw [hplace]
      simp only [Place.scan, quoted, hread, String.ofList_toList]
    have htaken : (c.place.left : Int) - Place.left ⟨after.toList, []⟩ = quoted.length := by
      simp [hplace, Place.left]
    have htext : (c.readText d k.mode).outcome =
        .ok ⟨text, c.pos + ((c.place.left : Int) - Place.left ⟨after.toList, []⟩)⟩ :=
      Cursor.readBy_of_rule (Int.le_refl 0) (congrArg Except.ok hscan)
    rw [htaken, show c.pos = 0 from rfl, Int.zero_add] at htext
    exact htext

/-- A selector that separators and quotes are part of, in front of its opener. -/
theorem Cursor.readText_quoted_selector :
    TextPlace.Serves .standard .selector ∧
      Dialect.standard.EndsBefore .selector " \x7b".toList ∧
      (Cursor.readText ⟨"it''s',' \x7b", 0⟩ .standard .selector).outcome = .ok ⟨"it's,", 8⟩ := by
  have hserves : TextPlace.Serves .standard .selector :=
    show isBlank '\'' = false by decide
  have hafter : Dialect.standard.EndsBefore .selector " \x7b".toList :=
    Dialect.endsBefore_cons.mpr (by decide)
  exact ⟨hserves, hafter, (readText_quoted hserves "it's," " \x7b" hafter).2⟩

end MessageFormat
