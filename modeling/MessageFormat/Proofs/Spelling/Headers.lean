import MessageFormat.Proofs.Numbers
import MessageFormat.Proofs.Spelling

/-!
# Spelled parts are read back

For each leaf reader, what it gives on a part as it is spelled: the start of a placeholder, its
offset clause, its format, a selector, and the pieces of markup. Blanks cannot get in the way if no
delimiter is one: a spelled token starts with a quote or with a character that ends no token.
-/

namespace MessageFormat

namespace Dialect

variable {d : Dialect}

theorem stops_of_isMark
    {m : Mode} {c : Char} (h : d.isMark m c = true) :
    d.stops m c = true := by
  simp [stops, h]

theorem stops_opener
    (d : Dialect) (m : Mode) :
    d.stops m d.opener = true :=
  stops_of_isMark (by simp [isMark])

theorem stops_closer
    (d : Dialect) (m : Mode) :
    d.stops m d.closer = true :=
  stops_of_isMark (by simp [isMark])

theorem stops_tagOpener
    (htags : d.tagsAllowed = true) (m : Mode) :
    d.stops m d.tagOpener = true :=
  stops_of_isMark (by simp [isMark, htags])

theorem stops_tagCloser
    (htags : d.tagsAllowed = true) :
    d.stops .tagName d.tagCloser = true :=
  stops_of_isMark (by simp [isMark, htags, Mode.tagName])

theorem stops_tagSlash
    (htags : d.tagsAllowed = true) :
    d.stops .tagName d.tagSlash = true :=
  stops_of_isMark (by simp [isMark, htags, Mode.tagName])

theorem stops_separator
    (d : Dialect) :
    d.stops .word d.separator = true := by
  simp [stops, Mode.word]

theorem stops_blank
    {m : Mode} (hblanks : m.blanks = false) {c : Char} (hc : isBlank c = true) :
    d.stops m c = true := by
  simp [stops, hblanks, hc]

theorem stops_space
    {m : Mode} (hblanks : m.blanks = false) :
    d.stops m ' ' = true :=
  stops_blank hblanks (by decide)

/-- What does not stop a text in which blanks do is no blank. -/
theorem isBlank_of_stops
    {m : Mode} (hblanks : m.blanks = false) {c : Char} (hc : d.stops m c = false) :
    isBlank c = false := by
  cases hblank : isBlank c with
  | false => rfl
  | true => simp [stops_blank hblanks hblank] at hc

theorem ne_of_stops
    {m : Mode} {c c' : Char}
    (hc : d.stops m c = false) (hc' : d.stops m c' = true) :
    c ≠ c' := by
  rintro rfl
  simp [hc] at hc'

/-- A spelled text starts with a character that does not end it. -/
theorem spellText_eq_cons
    {m : Mode} (hquote : d.stops m d.quote = false)
    {s : String} (hs : s ≠ "") (after : List Char) :
    ∃ c rest, d.spellText m s after = c :: rest ∧ d.stops m c = false := by
  cases htext : s.toList with
  | nil =>
      exact absurd (String.toList_eq_nil_iff.mp htext) hs
  | cons c text =>
      have hhead := Quoted.spell_cons_head? d.quote (d.stops m) c text
      cases hspell : Quoted.spell d.quote (d.stops m) (c :: text) with
      | nil =>
          simp [hspell] at hhead
      | cons first rest =>
          refine ⟨first, rest ++ after, ?_, ?_⟩
          · simp [spellText, htext, hspell]
          · rw [hspell] at hhead
            simp only [List.head?_cons, Option.some.injEq] at hhead
            rw [hhead]
            split
            · exact hquote
            · next hraw =>
                cases hstop : d.stops m c with
                | false => rfl
                | true => exact absurd (Or.inr hstop) hraw

theorem scan_spellText
    {m m' : Mode} (hcovers : d.Covers m (d.stops m'))
    (s : String) {after : List Char} (hafter : d.EndsBefore m after) (k : List Nat) :
    Place.scan ⟨d.spellText m' s after, k⟩ d m = (s, ⟨after, k⟩) := by
  simp [Place.scan, spellText, Quoted.scan_spell hcovers s.toList hafter]

section Visible

variable (hvisible : d.Visible)
include hvisible

theorem stops_quote_of_visible
    (m : Mode) :
    d.stops m d.quote = false :=
  d.stops_quote m (Or.inr (hvisible .quote))

/-- No blank stands in front of a spelled token. -/
theorem skipBlanks_spellText
    {m : Mode} (hblanks : m.blanks = false)
    {s : String} (hs : s ≠ "") (after : List Char) :
    skipBlanks (d.spellText m s after) = d.spellText m s after := by
  obtain ⟨c, rest, hcons, hc⟩ :=
    spellText_eq_cons (stops_quote_of_visible hvisible m) hs after
  rw [hcons]
  exact skipBlanks_of_head? (by simpa using isBlank_of_stops hblanks hc)

theorem skipBlanks_cons_visible
    (r : Role) (rest : List Char) :
    skipBlanks (d.char r :: rest) = d.char r :: rest :=
  skipBlanks_of_head? (by simpa using hvisible r)

/-- A blank in front of a spelled token is skipped. -/
theorem skipBlanks_blank_spellText
    {m : Mode} (hblanks : m.blanks = false)
    {s : String} (hs : s ≠ "") (after : List Char) :
    skipBlanks (' ' :: d.spellText m s after) = d.spellText m s after := by
  rw [skipBlanks_space]
  exact skipBlanks_spellText hvisible hblanks hs after

theorem readWord_spell
    {what : Expectation} {p : Place} {s : String} {r : Role} {rest : List Char} {k : List Nat}
    (hp : p.skip = ⟨d.spellText .word s (d.char r :: rest), k⟩) (hs : s ≠ "")
    (hstop : d.stops .word (d.char r) = true) :
    d.readWord what p = .ok (s, ⟨d.char r :: rest, k⟩) := by
  have hafter : d.EndsBefore .word (d.char r :: rest) := endsBefore_cons.mpr hstop
  have hscan := scan_spellText (covers_word (hvisible .quote)) s hafter k
  simp only [readWord, hp, hscan]
  rw [if_neg (by simpa using hs)]
  simp [Place.skip, skipBlanks_cons_visible hvisible r rest]

theorem readHead_spell_bare
    {id : String} (hid : id ≠ "") (after : List Char) (k : List Nat) :
    d.readHead ⟨d.spellText .word id (d.closer :: after), k⟩ = .ok (.bare id, ⟨after, k⟩) := by
  have hskip : Place.skip ⟨d.spellText .word id (d.closer :: after), k⟩ =
      ⟨d.spellText .word id (d.closer :: after), k⟩ := by
    simp [Place.skip, skipBlanks_spellText hvisible (m := .word) rfl hid]
  have hword : d.readWord .placeholderId ⟨d.spellText .word id (d.closer :: after), k⟩ =
      .ok (id, ⟨d.closer :: after, k⟩) :=
    readWord_spell hvisible (r := .closer) hskip hid (d.stops_closer .word)
  simp [readHead, hword, Place.peek, Place.advance]

/-- The id is read back up to the separator. -/
theorem readWord_spell_id
    {id : String} (hid : id ≠ "") (rest : List Char) (k : List Nat) :
    d.readWord .placeholderId ⟨d.spellText .word id (d.separator :: rest), k⟩ =
      .ok (id, ⟨d.separator :: rest, k⟩) := by
  have hskip : Place.skip ⟨d.spellText .word id (d.separator :: rest), k⟩ =
      ⟨d.spellText .word id (d.separator :: rest), k⟩ := by
    simp [Place.skip, skipBlanks_spellText hvisible (m := .word) rfl hid]
  exact readWord_spell hvisible (r := .separator) hskip hid d.stops_separator

/-- The type is read back up to the closer or to the next separator, from the blank on. -/
theorem readWord_spell_type
    {type : String} (htype : type ≠ "") {r : Role} (rest : List Char) (k : List Nat)
    (hstop : d.stops .word (d.char r) = true) :
    d.readWord .type ⟨' ' :: d.spellText .word type (d.char r :: rest), k⟩ =
      .ok (type, ⟨d.char r :: rest, k⟩) := by
  refine readWord_spell hvisible ?_ htype hstop
  simp [Place.skip, skipBlanks_blank_spellText hvisible (m := .word) rfl htype]

theorem readHead_spell_typed
    {id type : String} (hid : id ≠ "") (htype : type ≠ "") (hplain : d.isBranching type = false)
    (after : List Char) (k : List Nat) :
    d.readHead ⟨d.spellText .word id (d.separator :: ' ' ::
        d.spellText .word type (d.closer :: after)), k⟩ =
      .ok (.typed id type, ⟨after, k⟩) := by
  have hword := readWord_spell_id hvisible hid (' ' :: d.spellText .word type (d.closer :: after)) k
  have htypeWord := readWord_spell_type hvisible htype (r := .closer) after k
    (d.stops_closer .word)
  have hne : d.separator ≠ d.closer := d.char_ne .separator .closer
  simp only [Delimiters.char] at htypeWord
  simp [readHead, hword, Place.peek, Place.advance, hne, htypeWord, hplain]

/-- What follows the separator after the type is read from its first character that is no blank. -/
theorem readHead_spell_formatted
    {id type : String} (hid : id ≠ "") (htype : type ≠ "")
    (after : List Char) (k : List Nat) :
    d.readHead ⟨d.spellText .word id (d.separator :: ' ' ::
        d.spellText .word type (d.separator :: after)), k⟩ =
      .ok (.formatted id type, ⟨skipBlanks after, k⟩) := by
  have hword := readWord_spell_id hvisible hid
    (' ' :: d.spellText .word type (d.separator :: after)) k
  have htypeWord := readWord_spell_type hvisible htype (r := .separator) after k
    d.stops_separator
  have hne : d.separator ≠ d.closer := d.char_ne .separator .closer
  simp only [Delimiters.char] at htypeWord
  simp [readHead, hword, Place.peek, Place.advance, Place.skip, hne, htypeWord]

end Visible

end Dialect

theorem isBlank_of_isDigit
    {c : Char} (h : c.isDigit = true) :
    isBlank c = false := by
  have hdigits : (blanks.all fun c => !c.isDigit) = true := by
    decide
  cases hc : isBlank c with
  | false => rfl
  | true =>
      have hmem : c ∈ blanks := by
        simpa [isBlank] using hc
      have hdigit := List.all_eq_true.mp hdigits c hmem
      simp [h] at hdigit

theorem toDigits_eq_cons
    (n : Nat) :
    ∃ c digits, Nat.toDigits 10 n = c :: digits ∧ c.isDigit = true := by
  cases hdigits : Nat.toDigits 10 n with
  | nil => exact absurd hdigits Nat.toDigits_ne_nil
  | cons c digits =>
      have hmem : c ∈ Nat.toDigits 10 n := by
        simp [hdigits]
      exact ⟨c, digits, rfl, Nat.isDigit_of_mem_toDigits (by omega) (by omega) hmem⟩

theorem length_toDigits_le
    {n digits : Nat} (hdigits : 0 < digits) (hn : n < leastOver digits) :
    (Nat.toDigits 10 n).length ≤ digits :=
  (Nat.length_toDigits_le_iff (by omega) hdigits).mpr hn

theorem head?_decimal
    (n : Int) (after : List Char) :
    ((decimal n).toList ++ after).head?.any isBlank = false := by
  unfold decimal
  split
  · rw [String.toList_append]
    rfl
  · rw [Nat.toList_repr]
    obtain ⟨c, digits, hdigits, hc⟩ := toDigits_eq_cons n.natAbs
    rw [hdigits]
    simpa using isBlank_of_isDigit hc

theorem toList_decimal
    (n : Int) :
    (decimal n).toList = (if n < 0 then ['-'] else []) ++ Nat.toDigits 10 n.natAbs := by
  unfold decimal
  split
  · rw [String.toList_append, Nat.toList_repr]
    rfl
  · rw [Nat.toList_repr, List.nil_append]

theorem isSign_of_isDigit
    {c : Char} (hc : c.isDigit = true) :
    isSign c = false := by
  cases hsign : isSign c with
  | false => rfl
  | true =>
      simp only [isSign, Bool.or_eq_true, beq_iff_eq] at hsign
      rcases hsign with rfl | rfl <;> simp at hc

/-- A number that is written is cut into its sign and its digits, in front of what is no digit. -/
theorem exists_numberCut_decimal
    (n : Int) {after : List Char} (hafter : after.head?.any Char.isDigit = false) :
    ∃ cut : NumberCut ((decimal n).toList ++ after),
      cut.digits = Nat.toDigits 10 n.natAbs ∧ cut.after = after ∧ cut.value = n := by
  obtain ⟨c, digits, hdigits, hc⟩ := toDigits_eq_cons n.natAbs
  have hrun : (Nat.toDigits 10 n.natAbs).all Char.isDigit = true :=
    List.all_eq_true.mpr fun _ hc => Nat.isDigit_of_mem_toDigits (by omega) (by omega) hc
  have htext : (decimal n).toList ++ after =
      (if n < 0 then ['-'] else []) ++ (Nat.toDigits 10 n.natAbs ++ after) := by
    rw [toList_decimal, List.append_assoc]
  have hsign : (if n < 0 then ['-'] else []) ∈ [[], ['-'], ['+']] := by
    split <;> simp
  have hunsigned : (Nat.toDigits 10 n.natAbs ++ after).head?.any isSign = false := by
    simpa [hdigits] using isSign_of_isDigit hc
  refine ⟨⟨[], _, _, after, htext, rfl, htext ▸ head?_decimal n after, hsign,
    fun _ => hunsigned, hrun, hafter⟩, rfl, rfl, ?_⟩
  have hmagnitude : Nat.ofDigits 10 ((Nat.toDigits 10 n.natAbs).reverse.map digitValue) =
      n.natAbs := by
    rw [← ofDigitChars_eq_ofDigits, Nat.ofDigitChars_ten_toDigits]
  by_cases hneg : n < 0
  · simp only [NumberCut.value, hmagnitude, hneg, if_true]
    omega
  · simp only [NumberCut.value, hmagnitude, hneg, if_false, List.nil_eq, reduceCtorEq]
    omega

namespace Dialect

variable {d : Dialect}

theorem readNumber_decimal
    {n : Int} (hn : n.natAbs < leastOver maxDigits)
    {after : List Char} (hafter : after.head?.any Char.isDigit = false) :
    readNumber ((decimal n).toList ++ after) = .offset n after := by
  have hlength : (Nat.toDigits 10 n.natAbs).length ≤ maxDigits :=
    length_toDigits_le (by decide) hn
  obtain ⟨cut, hdigits, hcut, hvalue⟩ := exists_numberCut_decimal n hafter
  rw [cut.readNumber_eq, hdigits, hcut, hvalue, if_neg Nat.toDigits_ne_nil, if_neg (by omega)]

/-- An offset is read back where the type allows one, and the blank after it is skipped. -/
theorem readOffsetClause_spell
    {type : String} (hnumeric : d.isNumeric type = true)
    {n : Int} (hn : n.natAbs < leastOver maxDigits)
    {after : List Char} (hafter : after.head?.any Char.isDigit = false) (k : List Nat) :
    d.readOffsetClause type ⟨(d.spellOffset n).toList ++ after, k⟩ =
      .ok (some n, ⟨skipBlanks after, k⟩) := by
  have hkeyword : d.offsetKeyword.toList.isPrefixOf ((d.spellOffset n).toList ++ after) = true := by
    rw [List.isPrefixOf_iff_prefix, spellOffset, String.toList_append, List.append_assoc]
    exact List.prefix_append _ _
  have hdrop : ((d.spellOffset n).toList ++ after).drop d.offsetKeyword.toList.length =
      (decimal n).toList ++ after := by
    rw [spellOffset, String.toList_append, List.append_assoc, List.drop_left]
  simp only [readOffsetClause, readOffsetNumber, readOffset, Seam.near_none, hnumeric, hkeyword,
    hdrop, readNumber_decimal hn hafter, if_true, offsetResult, Place.skip]

/-- There is no offset where the type allows none or the keyword is not there. -/
theorem readOffsetClause_absent
    {type : String} {p : Place}
    (h : d.isNumeric type = true → ¬ d.offsetKeyword.toList <+: p.rest) :
    d.readOffsetClause type p = .ok (none, p) := by
  unfold readOffsetClause
  split
  · next hnumeric =>
      have hkeyword : d.offsetKeyword.toList.isPrefixOf p.rest = false := by
        rw [Bool.eq_false_iff, ne_eq, List.isPrefixOf_iff_prefix]
        exact h hnumeric
      simp [readOffsetNumber, readOffset, hkeyword, offsetResult]
  · rfl

/-- A format is read back without the blanks at its end. -/
theorem readFormat_spellText
    {s : String} (hs : s.toList.all isBlank = false) (after : List Char) (k : List Nat) :
    d.readFormat ⟨d.spellText .body s (d.closer :: after), k⟩ =
      .ok (String.ofList (trimBlanksEnd s.toList), ⟨d.closer :: after, k⟩) := by
  have hafter : d.EndsBefore .body (d.closer :: after) :=
    endsBefore_cons.mpr (d.stops_closer .body)
  have hne : trimBlanksEnd s.toList ≠ [] := by
    intro hnil
    simp [trimBlanksEnd_eq_nil_iff.mp hnil] at hs
  simp only [readFormat, scan_spellText d.covers_body s hafter k]
  rw [if_neg (by simpa using hne)]

theorem readFormat_spell
    {s : String} (hs : EndsInk s) (after : List Char) (k : List Nat) :
    d.readFormat ⟨d.spellText .body s (d.closer :: after), k⟩ =
      .ok (s, ⟨d.closer :: after, k⟩) := by
  rw [readFormat_spellText hs.all_isBlank, trimBlanksEnd_of_getLast? hs.2, String.ofList_toList]

/-- Before the closer of a placeholder nothing is skipped, and nothing is missing. -/
theorem readCloser_spell
    (hvisible : d.Visible) (after : List Char) (k : List Nat) :
    d.readCloser ⟨d.closer :: after, k⟩ = .ok ⟨after, k⟩ := by
  have hskip : skipBlanks (d.closer :: after) = d.closer :: after :=
    skipBlanks_cons_visible hvisible .closer after
  simp [readCloser, Place.skip, hskip, Place.peek, Place.advance]

theorem readSelector_spell
    (hvisible : d.Visible) {s : String} (hs : s ≠ "") (after : List Char) (k : List Nat) :
    d.readSelector ⟨d.spellText .word s (' ' :: d.opener :: after), k⟩ = .ok (s, ⟨after, k⟩) := by
  have hafter : d.EndsBefore .selector (' ' :: d.opener :: after) :=
    endsBefore_cons.mpr (stops_space rfl)
  have hskip : skipBlanks (' ' :: d.opener :: after) = d.opener :: after := by
    rw [skipBlanks_space]
    exact skipBlanks_cons_visible hvisible .opener after
  simp only [readSelector, scan_spellText (covers_selector (hvisible .quote)) s hafter k]
  rw [if_neg (by simpa using hs)]
  simp [Place.skip, hskip, Place.peek, Place.advance]

section Tags

variable (hvisible : d.Visible) (htags : d.tagsAllowed = true)
include hvisible htags

/-- The name of a tag is read back up to the slash or the tag closer, and does not look like the
slash of a closing tag. -/
theorem scan_spell_tagName
    {name : String} (hname : name ≠ "") {r : Role} (hr : r = .tagSlash ∨ r = .tagCloser)
    (rest : List Char) (k : List Nat) :
    Place.scan ⟨d.spellText .tagName name (d.char r :: rest), k⟩ d .tagName =
        (name, ⟨d.char r :: rest, k⟩) ∧
      (d.spellText .tagName name (d.char r :: rest)).head? ≠ some d.tagSlash := by
  have hstop : d.stops .tagName (d.char r) = true := by
    rcases hr with rfl | rfl
    · exact stops_tagSlash htags
    · exact stops_tagCloser htags
  refine ⟨scan_spellText (covers_tagName (hvisible .quote)) name (endsBefore_cons.mpr hstop) k, ?_⟩
  obtain ⟨c, tail, hcons, hc⟩ :=
    spellText_eq_cons (stops_quote_of_visible hvisible .tagName) hname (d.char r :: rest)
  rw [hcons]
  simpa using ne_of_stops hc (stops_tagSlash htags)

theorem readTagHead_spell_opening
    {enclosing : Enclosing} {name : String} (hname : name ≠ "")
    (after : List Char) (k : List Nat) :
    d.readTagHead enclosing ⟨d.spellTag name (d.tagCloser :: after), k⟩ =
      .ok (.opening name, ⟨after, k⟩) := by
  obtain ⟨hscan, hslash⟩ :=
    scan_spell_tagName hvisible htags hname (r := .tagCloser) (Or.inr rfl) after k
  have hskip : skipBlanks (d.tagCloser :: after) = d.tagCloser :: after :=
    skipBlanks_cons_visible hvisible .tagCloser after
  have hne : d.tagCloser ≠ d.tagSlash := d.char_ne .tagCloser .tagSlash
  simp only [Delimiters.char] at hscan hslash
  simp [readTagHead, spellTag, Place.advance, Place.peek, Place.skip, hslash, hscan, hname, hskip,
    hne]

theorem readTagHead_spell_empty
    {enclosing : Enclosing} {name : String} (hname : name ≠ "")
    (after : List Char) (k : List Nat) :
    d.readTagHead enclosing ⟨d.spellTag name (d.tagSlash :: d.tagCloser :: after), k⟩ =
      .ok (.empty name, ⟨after, k⟩) := by
  obtain ⟨hscan, hslash⟩ :=
    scan_spell_tagName hvisible htags hname (r := .tagSlash) (Or.inl rfl) (d.tagCloser :: after) k
  have hskip : skipBlanks (d.tagSlash :: d.tagCloser :: after) =
      d.tagSlash :: d.tagCloser :: after :=
    skipBlanks_cons_visible hvisible .tagSlash _
  simp only [Delimiters.char] at hscan hslash
  simp [readTagHead, spellTag, Place.advance, Place.peek, Place.skip, hslash, hscan, hname, hskip]

theorem readTagHead_spell_closing
    {name : String} (hname : name ≠ "") (after : List Char) (k : List Nat) :
    d.readTagHead (.tag name) ⟨d.spellClosingTag name after, k⟩ =
      .ok (.closing name, ⟨after, k⟩) := by
  obtain ⟨hscan, _⟩ :=
    scan_spell_tagName hvisible htags hname (r := .tagCloser) (Or.inr rfl) after k
  have hskip : skipBlanks (d.tagCloser :: after) = d.tagCloser :: after :=
    skipBlanks_cons_visible hvisible .tagCloser after
  have hnameSkip : skipBlanks (d.spellText .tagName name (d.tagCloser :: after)) =
      d.spellText .tagName name (d.tagCloser :: after) :=
    skipBlanks_spellText hvisible rfl hname _
  simp only [Delimiters.char] at hscan
  simp [readTagHead, readClosingTag, spellClosingTag, Place.advance, Place.peek, Place.skip,
    hnameSkip, hscan, hname, hskip]

end Tags

/-- What is skipped in front of an offset clause is the blank in front of its keyword. -/
theorem skipBlanks_spellOffset
    (hkeyword : StartsInk d.offsetKeyword) (n : Int) (after : List Char) :
    skipBlanks (' ' :: ((d.spellOffset n).toList ++ after)) =
      (d.spellOffset n).toList ++ after := by
  have hink : ((d.spellOffset n).toList ++ after).head?.any isBlank = false := by
    unfold StartsInk at hkeyword
    rw [spellOffset, String.toList_append]
    cases htext : d.offsetKeyword.toList with
    | nil =>
        exact absurd (String.toList_eq_nil_iff.mp htext) d.keyword_ne_empty
    | cons c rest =>
        rw [htext] at hkeyword
        simpa using hkeyword
  rw [skipBlanks_space]
  exact skipBlanks_of_head? hink

/-- What is skipped in front of a format is the blank that separates it. -/
theorem skipBlanks_blank_spellFormat
    (hvisible : d.Visible) {s : String} (hne : s ≠ "") (hs : StartsInk s)
    (after : List Char) :
    skipBlanks (' ' :: d.spellText .body s after) = d.spellText .body s after := by
  have hink : (d.spellText .body s after).head?.any isBlank = false := by
    unfold StartsInk at hs
    unfold spellText
    cases htext : s.toList with
    | nil =>
        exact absurd (String.toList_eq_nil_iff.mp htext) hne
    | cons c text =>
        rw [htext] at hs
        rw [List.head?_append, Quoted.spell_cons_head?]
        have hquote : isBlank d.quote = false := hvisible .quote
        split
        · simpa using hquote
        · simpa using hs
  rw [skipBlanks_space]
  exact skipBlanks_of_head? hink

/-- Sub-messages start with a blank, then a selector. -/
theorem skipBlanks_spell_cons
    (hvisible : d.Visible) (owner : Option String) {selector : String}
    (hselector : selector ≠ "") (body : Message) (rest : Submessages) (after : List Char) :
    skipBlanks (Submessages.spell d owner ((selector, body) :: rest) after) =
      d.spellText .word selector (' ' :: d.opener ::
        Message.spell d owner body (d.closer :: Submessages.spell d owner rest after)) := by
  rw [Submessages.spell]
  exact skipBlanks_blank_spellText hvisible (m := .word) rfl hselector _

/-- Behind the tag opener of a spelled tag there is no blank. -/
theorem peek_spellTag
    (hvisible : d.Visible) {name : String} (hname : name ≠ "")
    (text : List Char) (k : List Nat) :
    (Place.advance ⟨d.spellTag name text, k⟩).peek.any isBlank = false := by
  obtain ⟨c, rest, hcons, hc⟩ := spellText_eq_cons
    (stops_quote_of_visible hvisible .tagName) hname text
  simpa [Place.peek, Place.advance, spellTag, hcons] using
    isBlank_of_stops rfl hc

end Dialect

end MessageFormat
