import Mathlib.Data.List.TakeWhile
import MessageFormat.Message.Header
import MessageFormat.Proofs.Quoting

/-!
# What the leaf readers give

Ids, types, selectors and tag names are never empty, a type without sub-messages is no branching
type, an offset stands only at a numeric type and is bounded by its digits, and a format is trimmed.
A format starts after any blanks, so in a dialect without blank delimiters it does not start with
one (`readFormat_sound`).
-/

namespace MessageFormat

/-- A text is not empty and does not end in a blank. -/
def EndsInk (s : String) : Prop :=
  s ≠ "" ∧ s.toList.getLast?.any isBlank = false

/-- A text does not start with a blank. -/
def StartsInk (s : String) : Prop :=
  s.toList.head?.any isBlank = false

instance (s : String) : Decidable (EndsInk s) :=
  inferInstanceAs (Decidable (_ ∧ _))

instance (s : String) : Decidable (StartsInk s) :=
  inferInstanceAs (Decidable (_ = false))

/-- A text that does not end in a blank is not blank. -/
theorem EndsInk.all_isBlank
    {s : String} (h : EndsInk s) :
    s.toList.all isBlank = false := by
  obtain ⟨hne, hlast⟩ := h
  cases hgetLast : s.toList.getLast? with
  | none =>
      exact absurd (List.getLast?_eq_none_iff.mp hgetLast) (by simpa using hne)
  | some c =>
      rw [hgetLast] at hlast
      exact List.all_eq_false.mpr ⟨c, List.mem_of_getLast? hgetLast, by simpa using hlast⟩

/-- The ids and types of a start of a placeholder. -/
def Head.Sound (d : Dialect) : Head → Prop
  | .bare id => id ≠ ""
  | .typed id type => id ≠ "" ∧ type ≠ "" ∧ d.isBranching type = false
  | .formatted id type => id ≠ "" ∧ type ≠ ""

/-- The name of a piece of markup. -/
def TagHead.Sound : TagHead → Prop
  | .text => True
  | .closing name | .empty name | .opening name => name ≠ ""

/-- No character of a run stands behind it. -/
theorem head?_dropWhile
    (f : Char → Bool) (text : List Char) :
    (text.dropWhile f).head?.any f = false := by
  have h := List.head?_dropWhile_not f text
  cases hhead : (text.dropWhile f).head? with
  | none => rfl
  | some c => simpa [hhead] using h

/-- A run of characters ends where another one stands behind it. -/
theorem span_run
    {f : Char → Bool} {run rest : List Char}
    (hrun : run.all f = true) (hend : rest.head?.any f = false) :
    (run ++ rest).takeWhile f = run ∧ (run ++ rest).dropWhile f = rest := by
  have hstop : rest.takeWhile f = [] ∧ rest.dropWhile f = rest := by
    cases rest with
    | nil => simp
    | cons c rest =>
        have hc : f c = false := by
          simpa using hend
        simp [hc]
  have hmem := List.all_eq_true.mp hrun
  rw [List.takeWhile_append_of_pos hmem, List.dropWhile_append_of_pos hmem, hstop.1, hstop.2,
    List.append_nil]
  exact ⟨rfl, rfl⟩

theorem head?_skipBlanks
    (text : List Char) :
    (skipBlanks text).head?.any isBlank = false :=
  head?_dropWhile isBlank text

theorem skipBlanks_of_head?
    {text : List Char} (h : text.head?.any isBlank = false) :
    skipBlanks text = text := by
  cases text with
  | nil =>
      rfl
  | cons c rest =>
      have hc : isBlank c = false := by
        simpa using h
      simp [skipBlanks, hc]

theorem skipBlanks_space
    (rest : List Char) :
    skipBlanks (' ' :: rest) = skipBlanks rest := by
  rfl

/-- The last blanks of a text are dropped, and nothing else. -/
theorem trimBlanksEnd_prefix
    (text : List Char) :
    trimBlanksEnd text <+: text := by
  have h := List.dropWhile_suffix isBlank (l := text.reverse)
  rw [← List.reverse_prefix] at h
  simpa [trimBlanksEnd] using h

theorem getLast?_trimBlanksEnd
    (text : List Char) :
    (trimBlanksEnd text).getLast?.any isBlank = false := by
  rw [trimBlanksEnd, List.getLast?_reverse]
  exact head?_skipBlanks text.reverse

theorem trimBlanksEnd_of_getLast?
    {text : List Char} (h : text.getLast?.any isBlank = false) :
    trimBlanksEnd text = text := by
  rw [← List.head?_reverse] at h
  have hskip := skipBlanks_of_head? h
  unfold skipBlanks at hskip
  rw [trimBlanksEnd, hskip, List.reverse_reverse]

/-- Nothing is left of blanks. -/
theorem trimBlanksEnd_eq_nil_iff
    {text : List Char} :
    trimBlanksEnd text = [] ↔ text.all isBlank = true := by
  simp [trimBlanksEnd, List.dropWhile_eq_nil_iff]

/-- Digits write a number that has no more digits than there are. -/
theorem ofDigitChars_lt
    (digits : List Char) (hdigits : ∀ c ∈ digits, c.isDigit = true) :
    Nat.ofDigitChars 10 digits 0 < leastOver digits.length := by
  induction digits with
  | nil =>
      simp [leastOver]
  | cons c digits ih =>
      have hlt := ih (fun c hc => hdigits c (List.mem_cons_of_mem _ hc))
      have hc : c.toNat - '0'.toNat ≤ 9 := by
        have hdigit := Char.isDigit_iff_toNat.mp (hdigits c List.mem_cons_self)
        simp at hdigit ⊢
        omega
      calc Nat.ofDigitChars 10 (c :: digits) 0
          = leastOver digits.length * (c.toNat - '0'.toNat) + Nat.ofDigitChars 10 digits 0 := by
            rw [Nat.ofDigitChars_cons, Nat.ofDigitChars_eq_ofDigitChars_zero]
            simp [leastOver]
        _ ≤ leastOver digits.length * 9 + Nat.ofDigitChars 10 digits 0 :=
            Nat.add_le_add_right (Nat.mul_le_mul_left _ hc) _
        _ < leastOver digits.length * 9 + leastOver digits.length := Nat.add_lt_add_left hlt _
        _ = leastOver digits.length * 10 := (Nat.mul_succ _ 9).symm
        _ = leastOver (c :: digits).length := rfl

theorem leastOver_le
    {few many : Nat} (h : few ≤ many) :
    leastOver few ≤ leastOver many :=
  Nat.pow_le_pow_right (by omega) h

/-- Reading takes digits only. -/
theorem Numeral.read_digits
    (text : List Char) :
    ∀ c ∈ (Numeral.read text).1.digits, c.isDigit = true := by
  unfold Numeral.read
  split
  · exact List.all_eq_true.mp List.all_takeWhile
  · exact List.all_eq_true.mp List.all_takeWhile
  · exact List.all_eq_true.mp List.all_takeWhile

theorem Numeral.natAbs_value
    (n : Numeral) :
    n.value.natAbs = Nat.ofDigitChars 10 n.digits 0 := by
  unfold Numeral.value
  split
  · rw [Int.natAbs_neg, Int.natAbs_natCast]
  · exact Int.natAbs_natCast _

namespace Place

theorem skip_eq_self_iff
    (p : Place) :
    p.skip = p ↔ p.peek.any isBlank = false := by
  constructor
  · intro h
    rw [← h]
    exact head?_skipBlanks p.rest
  · intro h
    unfold skip
    rw [skipBlanks_of_head? h]

@[simp] theorem skip_skip
    (p : Place) :
    p.skip.skip = p.skip :=
  (skip_eq_self_iff p.skip).mpr (head?_skipBlanks p.rest)

end Place

namespace Dialect

theorem readWord_ne_empty
    {d : Dialect} {what : Expectation} {p q : Place} {word : String}
    (h : d.readWord what p = .ok (word, q)) :
    word ≠ "" := by
  simp only [readWord, Place.expected] at h
  split at h
  · cases h
  · next hword =>
      cases h
      simpa using hword

theorem readHead_sound
    {d : Dialect} {p q : Place} {head : Head}
    (h : d.readHead p = .ok (head, q)) :
    head.Sound d := by
  unfold readHead at h
  split at h
  · cases h
  · next id r hid =>
      have hidNe := readWord_ne_empty hid
      split at h
      · cases h
        exact hidNe
      · split at h
        · cases h
        · split at h
          · cases h
          · next type s htype =>
              have htypeNe := readWord_ne_empty htype
              split at h
              · split at h
                · cases h
                · next hplain =>
                    cases h
                    exact ⟨hidNe, htypeNe, by simpa using hplain⟩
              · split at h
                · cases h
                · cases h
                  exact ⟨hidNe, htypeNe⟩

/-- Blanks in front of an offset or a format are skipped. -/
theorem readHead_skip
    {d : Dialect} {p q : Place} {id type : String}
    (h : d.readHead p = .ok (.formatted id type, q)) :
    q.skip = q := by
  unfold readHead at h
  split at h
  · cases h
  · split at h
    · cases h
    · split at h
      · cases h
      · split at h
        · cases h
        · split at h
          · split at h <;> cases h
          · split at h <;> cases h
            exact Place.skip_skip _

/-- A number that is read has no more than the largest number of digits. -/
theorem natAbs_lt_of_numberClause
    {text left rest : List Char} {numeral : Numeral} {n : Int}
    (hdigits : ∀ c ∈ numeral.digits, c.isDigit = true)
    (h : numberClause text numeral left = .offset n rest) :
    n.natAbs < leastOver maxDigits := by
  unfold numberClause at h
  split at h
  · cases h
  · split at h
    · cases h
    · next hlength =>
        cases h
        rw [numeral.natAbs_value]
        calc Nat.ofDigitChars 10 numeral.digits 0
            < leastOver numeral.digits.length := ofDigitChars_lt _ hdigits
          _ ≤ leastOver maxDigits := leastOver_le (by omega)

theorem natAbs_lt_of_readNumber
    {rest left : List Char} {seam : Seam} {n : Int}
    (h : readNumber rest seam = .offset n left) :
    n.natAbs < leastOver maxDigits := by
  simp only [readNumber] at h
  split at h
  · cases h
  · split at h
    · exact natAbs_lt_of_numberClause (Numeral.read_digits _) h
    · exact natAbs_lt_of_numberClause (Numeral.read_digits _) h

/-- An offset clause that is no failure is absent, or gives its number. -/
theorem offsetResult_eq_ok
    {p q : Place} {clause : OffsetClause} {offset : Option Int}
    (h : offsetResult p clause = .ok (offset, q)) :
    (clause = .absent ∧ offset = none ∧ q = p) ∨
      ∃ n left, clause = .offset n left ∧ offset = some n ∧ q = { p with rest := left } := by
  cases clause with
  | absent =>
      cases h
      exact Or.inl ⟨rfl, rfl, rfl⟩
  | unnumbered left => cases h
  | unreadable text left => cases h
  | overlong digits left => cases h
  | offset n left =>
      cases h
      exact Or.inr ⟨n, left, rfl, rfl, rfl⟩

theorem readOffsetNumber_bound
    {d : Dialect} {p q : Place} {seam : Seam} {n : Int}
    (h : d.readOffsetNumber p seam = .ok (some n, q)) :
    n.natAbs < leastOver maxDigits := by
  rcases offsetResult_eq_ok h with ⟨_, hnone, _⟩ | ⟨n', left, hoffset, hsome, _⟩
  · cases hnone
  · cases hsome
    unfold readOffset at hoffset
    split at hoffset
    · exact natAbs_lt_of_readNumber hoffset
    · cases hoffset

/-- An offset is read at a numeric type only, and is bounded by its digits. -/
theorem readOffsetClause_sound
    {d : Dialect} {type : String} {p q : Place} {seam : Seam} {n : Int}
    (h : d.readOffsetClause type p seam = .ok (some n, q)) :
    d.isNumeric type = true ∧ n.natAbs < leastOver maxDigits := by
  unfold readOffsetClause at h
  split at h
  · next hnumeric =>
      split at h
      · cases h
      · cases h
      · next n' r hnumber =>
          cases h
          exact ⟨hnumeric, readOffsetNumber_bound hnumber⟩
  · cases h

theorem readOffsetNumber_none
    {d : Dialect} {p q : Place} {seam : Seam}
    (h : d.readOffsetNumber p seam = .ok (none, q)) :
    q = p := by
  rcases offsetResult_eq_ok h with ⟨_, _, hplace⟩ | ⟨n, left, _, hsome, _⟩
  · exact hplace
  · cases hsome

/-- Blanks after an offset are skipped. -/
theorem readOffsetClause_skip
    {d : Dialect} {type : String} {p q : Place} {seam : Seam} {offset : Option Int}
    (h : d.readOffsetClause type p seam = .ok (offset, q)) (hp : p.skip = p) :
    q.skip = q := by
  unfold readOffsetClause at h
  split at h
  · split at h
    · cases h
    · next r hnumber =>
        cases h
        rw [readOffsetNumber_none hnumber]
        exact hp
    · cases h
      exact Place.skip_skip _
  · cases h
    exact hp

theorem isBlank_of_isMark
    {d : Dialect} (hvisible : d.Visible)
    {m : Mode} {c : Char} (h : d.isMark m c = true) :
    isBlank c = false := by
  simp only [isMark, Bool.or_eq_true, Bool.and_eq_true, beq_iff_eq] at h
  rcases h with ((hopener | hcloser) | ⟨_, htagOpener | ⟨_, htagCloser | htagSlash⟩⟩) |
    ⟨_, hreference⟩
  · exact hopener ▸ hvisible .opener
  · exact hcloser ▸ hvisible .closer
  · exact htagOpener ▸ hvisible .tagOpener
  · exact htagCloser ▸ hvisible .tagCloser
  · exact htagSlash ▸ hvisible .tagSlash
  · exact hreference ▸ hvisible .reference

/-- A text does not start with a blank if no blank stands at its start and the delimiters are no
blanks: what is read first is the next character, or a delimiter that was quoted. -/
theorem scan_body_head?
    {d : Dialect} (hvisible : d.Visible)
    {text : List Char} (hhead : text.head?.any isBlank = false) :
    (d.scan .body text).1.head?.any isBlank = false := by
  cases text with
  | nil =>
      rfl
  | cons c rest =>
      have hc : isBlank c = false := by
        simpa using hhead
      unfold scan
      cases hstop : d.stops .body c with
      | true =>
          rw [scanFrom_stop hstop]
          rfl
      | false =>
          by_cases hquote : c = d.quote
          · subst hquote
            cases rest with
            | nil =>
                rw [scanFrom_lone hstop (by simp)]
                simp [withChar, hc]
            | cons next rest =>
                by_cases hnext : next = d.quote
                · subst hnext
                  simp [scanFrom_pair hstop, withChar, hc]
                · cases hopens : d.opensRun .body next with
                  | true =>
                      have hmark : d.isMark .body next = true := by
                        simpa [opensRun, Mode.quotesAnything, Mode.body] using hopens
                      have hblank := isBlank_of_isMark hvisible hmark
                      simp [scanFrom_open hstop hnext hopens, withChar, hblank]
                  | false =>
                      rw [scanFrom_lone hstop (by simp [hnext, hopens])]
                      simp [withChar, hc]
          · simp [scanFrom_raw hstop hquote, withChar, hc]

/-- A format is trimmed at its end, and at its start if no delimiter is a blank. -/
theorem readFormat_sound
    {d : Dialect} {p q : Place} {format : String}
    (h : d.readFormat p = .ok (format, q)) (hp : p.skip = p) :
    EndsInk format ∧ (d.Visible → StartsInk format) := by
  simp only [readFormat, Place.expected, Place.scan, String.toList_ofList] at h
  split at h
  · cases h
  · next hne =>
      cases h
      refine ⟨⟨by simpa using hne, ?_⟩, ?_⟩
      · rw [String.toList_ofList]
        exact getLast?_trimBlanksEnd _
      · intro hvisible
        have hhead := scan_body_head? hvisible ((Place.skip_eq_self_iff p).mp hp)
        obtain ⟨rest, hrest⟩ := trimBlanksEnd_prefix (d.scan .body p.rest).1
        rw [StartsInk, String.toList_ofList]
        cases htrim : trimBlanksEnd (d.scan .body p.rest).1 with
        | nil =>
            rfl
        | cons c format =>
            rw [← hrest, htrim] at hhead
            simpa using hhead

theorem readSelector_ne_empty
    {d : Dialect} {p q : Place} {selector : String}
    (h : d.readSelector p = .ok (selector, q)) :
    selector ≠ "" := by
  simp only [readSelector, Place.expected] at h
  split at h
  · cases h
  · next hne =>
      split at h
      · cases h
        simpa using hne
      · cases h

theorem readClosingTag_sound
    {d : Dialect} {opened : String} {start p q : Place} {head : TagHead}
    (h : d.readClosingTag opened start p = .ok (head, q)) :
    head.Sound := by
  simp only [readClosingTag, Place.expected] at h
  split at h
  · cases h
    trivial
  · next hne =>
      split at h
      · cases h
      · split at h
        · cases h
        · cases h
          simpa [TagHead.Sound] using hne

theorem readTagHead_sound
    {d : Dialect} {enclosing : Enclosing} {start q : Place} {head : TagHead}
    (h : d.readTagHead enclosing start = .ok (head, q)) :
    head.Sound := by
  simp only [readTagHead] at h
  split at h
  · split at h
    · exact readClosingTag_sound h
    · cases h
  · split at h
    · cases h
      trivial
    · next hne =>
        have hname : (start.advance.scan d .tagName).1 ≠ "" := by
          simpa using hne
        split at h
        · split at h <;> cases h
          · exact hname
          · trivial
        · split at h <;> cases h
          · exact hname
          · trivial

end Dialect

end MessageFormat
