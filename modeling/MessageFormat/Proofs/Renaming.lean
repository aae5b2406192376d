import MessageFormat.Offset
import MessageFormat.Quoted
import Mathlib.Data.List.Nodup
import Mathlib.Logic.Equiv.Basic

/-!
# Renaming characters

A `Renaming` permutes characters and keeps those that have a meaning in every dialect: blanks,
digits, signs, and the letters of the selector that every list of sub-messages must define. It acts
on texts character by character, and on a dialect by renaming all that the dialect sets.

Nothing else is known about a character than what a dialect says of it, so scanning, quoting and
reading offsets commute with every renaming. The lemmas say so for each of these; they are stated
from left to right, so that a renaming is moved out of what it is applied to.
-/

namespace MessageFormat

/-- Whether a character has a meaning that no dialect sets: it is a blank, a digit, a sign, or a
letter of the required selector. -/
def isReserved (c : Char) : Bool :=
  isBlank c || c.isDigit || c == '+' || c == '-' || requiredSelector.toList.contains c

/-- A permutation of characters that keeps those whose meaning no dialect sets. -/
structure Renaming where
  perm : Equiv.Perm Char
  keeps : ∀ c, isReserved c = true → perm c = c

namespace Renaming

/-- Exchanges two characters, unless their meaning is not set by a dialect. -/
def swap (a b : Char) (ha : isReserved a = false) (hb : isReserved b = false) : Renaming where
  perm := Equiv.swap a b
  keeps c hc := by
    apply Equiv.swap_apply_of_ne_of_ne
    · rintro rfl
      exact absurd hc (by simp [ha])
    · rintro rfl
      exact absurd hc (by simp [hb])

variable (s : Renaming)

/-- A character, renamed. -/
def char (c : Char) : Char :=
  s.perm c

/-- A text, renamed character by character. -/
def str (text : String) : String :=
  String.ofList (text.toList.map s.char)

section Characters

variable {c c' : Char}

theorem char_of_isBlank
    (h : isBlank c = true) :
    s.char c = c :=
  s.keeps c (by simp [isReserved, h])

theorem char_of_isDigit
    (h : c.isDigit = true) :
    s.char c = c :=
  s.keeps c (by simp [isReserved, h])

theorem char_plus :
    s.char '+' = '+' :=
  s.keeps '+' (by decide)

theorem char_minus :
    s.char '-' = '-' :=
  s.keeps '-' (by decide)

theorem char_of_mem_requiredSelector
    (h : c ∈ requiredSelector.toList) :
    s.char c = c :=
  s.keeps c (by simp [isReserved, h])

@[simp] theorem char_inj :
    s.char c = s.char c' ↔ c = c' :=
  s.perm.injective.eq_iff

theorem char_injective :
    Function.Injective s.char :=
  s.perm.injective

@[simp] theorem char_beq :
    (s.char c == s.char c') = (c == c') := by
  rw [Bool.eq_iff_iff]
  simp

/-- A character of a class that is kept is not reached from outside of the class. -/
theorem class_char
    {p : Char → Bool} (h : ∀ c, p c = true → s.char c = c) (c : Char) :
    p (s.char c) = p c := by
  cases hc : p c with
  | true =>
      rw [h c hc, hc]
  | false =>
      cases hs : p (s.char c) with
      | false =>
          rfl
      | true =>
          -- The renamed character is in the class, so it is kept, and renaming is injective.
          have hkept : s.char c = c := s.char_inj.mp (h _ hs)
          rw [hkept, hc] at hs
          cases hs

@[simp] theorem isBlank_char
    (c : Char) :
    isBlank (s.char c) = isBlank c :=
  s.class_char (fun _ => s.char_of_isBlank) c

@[simp] theorem isDigit_char
    (c : Char) :
    (s.char c).isDigit = c.isDigit :=
  s.class_char (fun _ => s.char_of_isDigit) c

theorem char_eq_iff_of_kept
    {kept : Char} (hkept : s.char kept = kept) :
    s.char c = kept ↔ c = kept := by
  constructor
  · intro h
    exact s.char_inj.mp (h.trans hkept.symm)
  · rintro rfl
    exact hkept

@[simp] theorem char_eq_plus :
    s.char c = '+' ↔ c = '+' :=
  s.char_eq_iff_of_kept s.char_plus

@[simp] theorem char_eq_minus :
    s.char c = '-' ↔ c = '-' :=
  s.char_eq_iff_of_kept s.char_minus

@[simp] theorem char_eq_lineFeed :
    s.char c = '\n' ↔ c = '\n' :=
  s.char_eq_iff_of_kept (s.char_of_isBlank (by decide))

end Characters

section Texts

@[simp] theorem toList_str
    (text : String) :
    (s.str text).toList = text.toList.map s.char := by
  simp [str]

@[simp] theorem str_ofList
    (text : List Char) :
    s.str (String.ofList text) = String.ofList (text.map s.char) := by
  simp [str]

theorem str_injective :
    Function.Injective s.str := by
  intro text text' h
  have hlist := congrArg String.toList h
  rw [toList_str, toList_str] at hlist
  exact String.toList_inj.mp ((List.map_inj_right fun _ _ hc => s.char_inj.mp hc).mp hlist)

@[simp] theorem str_inj
    {text text' : String} :
    s.str text = s.str text' ↔ text = text' :=
  s.str_injective.eq_iff

@[simp] theorem str_beq
    (text text' : String) :
    (s.str text == s.str text') = (text == text') := by
  rw [Bool.eq_iff_iff]
  simp

@[simp] theorem str_empty :
    s.str "" = "" := by
  rfl

@[simp] theorem str_eq_empty
    {text : String} :
    s.str text = "" ↔ text = "" := by
  have hiff : s.str text = s.str "" ↔ text = "" := s.str_inj
  rwa [str_empty] at hiff

@[simp] theorem isEmpty_str
    (text : String) :
    (s.str text).isEmpty = text.isEmpty := by
  rw [Bool.eq_iff_iff]
  simp

@[simp] theorem str_append
    (text text' : String) :
    s.str (text ++ text') = s.str text ++ s.str text' := by
  simp [str]

@[simp] theorem str_requiredSelector :
    s.str requiredSelector = requiredSelector := by
  have hkept : requiredSelector.toList.map s.char = requiredSelector.toList := by
    exact (List.map_congr_left fun _ => s.char_of_mem_requiredSelector).trans (List.map_id' _)
  rw [str, hkept, String.ofList_toList]

@[simp] theorem str_beq_requiredSelector
    (text : String) :
    (s.str text == requiredSelector) = (text == requiredSelector) := by
  have hbeq := s.str_beq text requiredSelector
  rwa [str_requiredSelector] at hbeq

end Texts

section Dialects

/-- Delimiters, renamed. -/
def delimiters (d : Delimiters) : Delimiters where
  opener := s.char d.opener
  closer := s.char d.closer
  tagOpener := s.char d.tagOpener
  tagCloser := s.char d.tagCloser
  tagSlash := s.char d.tagSlash
  separator := s.char d.separator
  reference := s.char d.reference
  quote := s.char d.quote

theorem char_delimiters
    (d : Delimiters) (r : Role) :
    (s.delimiters d).char r = s.char (d.char r) := by
  cases r <;> rfl

theorem distinct_delimiters
    {d : Delimiters} (h : d.Distinct) :
    (s.delimiters d).Distinct := by
  have hmap : Role.all.map (s.delimiters d).char = (Role.all.map d.char).map s.char := by
    rw [List.map_map]
    exact List.map_congr_left fun r _ => s.char_delimiters d r
  rw [Delimiters.Distinct, hmap]
  exact List.Nodup.map s.char_injective h

theorem empty_not_mem_map_str
    {texts : List String} (h : "" ∉ texts) :
    "" ∉ texts.map s.str := by
  intro hmem
  obtain ⟨text, htext, hempty⟩ := List.mem_map.mp hmem
  rw [str_eq_empty] at hempty
  exact h (hempty ▸ htext)

/-- A dialect, renamed: its delimiters, its offset keyword and its types. -/
def dialect (d : Dialect) : Dialect where
  toDelimiters := s.delimiters d.toDelimiters
  offsetKeyword := s.str d.offsetKeyword
  numericTypes := d.numericTypes.map s.str
  branchingTypes := d.branchingTypes.map s.str
  tagsAllowed := d.tagsAllowed
  distinct := s.distinct_delimiters d.distinct
  keyword_ne_empty := by
    simpa using d.keyword_ne_empty
  numericTypes_ne_empty := s.empty_not_mem_map_str d.numericTypes_ne_empty
  branchingTypes_ne_empty := s.empty_not_mem_map_str d.branchingTypes_ne_empty

variable (d : Dialect)

@[simp] theorem dialect_opener :
    (s.dialect d).opener = s.char d.opener := by
  rfl

@[simp] theorem dialect_closer :
    (s.dialect d).closer = s.char d.closer := by
  rfl

@[simp] theorem dialect_tagOpener :
    (s.dialect d).tagOpener = s.char d.tagOpener := by
  rfl

@[simp] theorem dialect_tagCloser :
    (s.dialect d).tagCloser = s.char d.tagCloser := by
  rfl

@[simp] theorem dialect_tagSlash :
    (s.dialect d).tagSlash = s.char d.tagSlash := by
  rfl

@[simp] theorem dialect_separator :
    (s.dialect d).separator = s.char d.separator := by
  rfl

@[simp] theorem dialect_reference :
    (s.dialect d).reference = s.char d.reference := by
  rfl

@[simp] theorem dialect_quote :
    (s.dialect d).quote = s.char d.quote := by
  rfl

@[simp] theorem dialect_tagsAllowed :
    (s.dialect d).tagsAllowed = d.tagsAllowed := by
  rfl

theorem contains_map_str
    (texts : List String) (text : String) :
    (texts.map s.str).contains (s.str text) = texts.contains text := by
  rw [Bool.eq_iff_iff, List.contains_iff_mem, List.contains_iff_mem,
    List.mem_map_of_injective s.str_injective]

@[simp] theorem isNumeric_dialect
    (type : String) :
    (s.dialect d).isNumeric (s.str type) = d.isNumeric type :=
  s.contains_map_str d.numericTypes type

@[simp] theorem isBranching_dialect
    (type : String) :
    (s.dialect d).isBranching (s.str type) = d.isBranching type :=
  s.contains_map_str d.branchingTypes type

variable (m : Mode)

@[simp] theorem isMark_dialect
    (c : Char) :
    (s.dialect d).isMark m (s.char c) = d.isMark m c := by
  simp [Dialect.isMark]

@[simp] theorem stops_dialect
    (c : Char) :
    (s.dialect d).stops m (s.char c) = d.stops m c := by
  simp [Dialect.stops]

@[simp] theorem opensRun_dialect
    (c : Char) :
    (s.dialect d).opensRun m (s.char c) = d.opensRun m c := by
  simp [Dialect.opensRun]

end Dialects

section Scanning

variable (d : Dialect) (m : Mode) (text : List Char)

theorem isBlank_comp_char :
    isBlank ∘ s.char = isBlank :=
  funext s.isBlank_char

theorem isDigit_comp_char :
    Char.isDigit ∘ s.char = Char.isDigit :=
  funext s.isDigit_char

@[simp] theorem skipBlanks_map :
    skipBlanks (text.map s.char) = (skipBlanks text).map s.char := by
  rw [skipBlanks, List.dropWhile_map, isBlank_comp_char, skipBlanks]

@[simp] theorem trimBlanksEnd_map :
    trimBlanksEnd (text.map s.char) = (trimBlanksEnd text).map s.char := by
  rw [trimBlanksEnd, ← List.map_reverse, List.dropWhile_map, isBlank_comp_char, ← List.map_reverse,
    trimBlanksEnd]

@[simp] theorem all_isBlank_map :
    (text.map s.char).all isBlank = text.all isBlank := by
  rw [List.all_map, isBlank_comp_char]

/-- What is read of a text and what is left of it, renamed. -/
def scanned (r : List Char × List Char) : List Char × List Char :=
  (r.1.map s.char, r.2.map s.char)

theorem scanned_withChar
    (c : Char) (r : List Char × List Char) :
    s.scanned (Dialect.withChar c r) = Dialect.withChar (s.char c) (s.scanned r) := by
  rfl

theorem scanFrom_map
    (inRun : Bool) :
    (s.dialect d).scanFrom m inRun (text.map s.char) = s.scanned (d.scanFrom m inRun text) := by
  -- A character ends the text, opens a run or closes one exactly if its renaming does.
  fun_induction Dialect.scanFrom d m inRun text with
  | case1 => simp [scanned]
  | case2 c hstop => simp [Dialect.scanFrom, hstop, scanned]
  | case3 c hstop => simp [Dialect.scanFrom, hstop, scanned]
  | case4 c next rest hstop => simp [Dialect.scanFrom, hstop, scanned]
  | case5 c next rest hstop hquote ih =>
      rw [scanned_withChar, ← ih]
      simp [Dialect.scanFrom, hstop, hquote]
  | case6 c rest hstop hquote ih =>
      rw [scanned_withChar, ← ih]
      simp_all [Dialect.scanFrom]
  | case7 c next rest hstop hquote hnext hopens ih =>
      rw [scanned_withChar, ← ih]
      simp_all [Dialect.scanFrom]
  | case8 c next rest hstop hquote hnext hopens ih =>
      rw [scanned_withChar, ← ih]
      simp_all [Dialect.scanFrom]
  | case9 c hquote => simp [Dialect.scanFrom, hquote, scanned]
  | case10 c hquote => simp_all [Dialect.scanFrom, scanned]
  | case11 c next rest hquote ih =>
      rw [scanned_withChar, ← ih]
      simp [Dialect.scanFrom, hquote]
  | case12 c rest hquote ih =>
      rw [scanned_withChar, ← ih]
      simp_all [Dialect.scanFrom]
  | case13 c next rest hquote hnext ih =>
      rw [← ih]
      simp_all [Dialect.scanFrom]

@[simp] theorem scan_map :
    (s.dialect d).scan m (text.map s.char) = s.scanned (d.scan m text) :=
  s.scanFrom_map d m text false

end Scanning

section Seams

variable (seam : Seam) (ahead later : List Char)

@[simp] theorem near_map :
    seam.near (ahead.map s.char) = (seam.near ahead).map s.char := by
  cases seam with
  | none => rfl
  | some size =>
      simp only [Seam.near, List.length_map, ← List.map_take]
      split <;> rfl

@[simp] theorem across?_map :
    seam.across? (ahead.map s.char) (later.map s.char) =
      (seam.across? ahead later).map (List.map s.char) := by
  cases seam with
  | none => rfl
  | some size =>
      simp only [Seam.across?, List.length_map, ← List.map_take]
      split <;> rfl

@[simp] theorem between_map :
    seam.between (ahead.map s.char) (later.map s.char) =
      (seam.between ahead later).map s.char := by
  simp only [Seam.between, across?_map, List.length_map, ← List.map_take]
  cases seam.across? ahead later with
  | none => rfl
  | some text => rfl

end Seams

section Offsets

@[simp] theorem takeWhile_isDigit_map
    (text : List Char) :
    (text.map s.char).takeWhile Char.isDigit = text.takeWhile Char.isDigit := by
  have hdigits : ∀ c ∈ text.takeWhile Char.isDigit, s.char c = c := fun c hc =>
    s.char_of_isDigit (List.all_eq_true.mp List.all_takeWhile c hc)
  rw [List.takeWhile_map, isDigit_comp_char]
  exact (List.map_congr_left hdigits).trans (List.map_id' _)

@[simp] theorem dropWhile_isDigit_map
    (text : List Char) :
    (text.map s.char).dropWhile Char.isDigit = (text.dropWhile Char.isDigit).map s.char := by
  rw [List.dropWhile_map, isDigit_comp_char]

/-- A number stays as it is, and what is left behind it is renamed. -/
theorem read_map
    (text : List Char) :
    Numeral.read (text.map s.char) =
      ((Numeral.read text).1, (Numeral.read text).2.map s.char) := by
  match text with
  | [] => rfl
  | c :: rest =>
      by_cases hcminus : c = '-'
      · subst hcminus
        simp [Numeral.read, char_minus]
      · by_cases hcplus : c = '+'
        · subst hcplus
          simp [Numeral.read, char_plus]
        · rw [List.map_cons, Numeral.read_unsigned (by simpa using hcminus) (by simpa using hcplus),
            Numeral.read_unsigned hcminus hcplus, ← List.map_cons, takeWhile_isDigit_map,
            dropWhile_isDigit_map]

/-- An offset clause, renamed: its number stays as it is. -/
def clause : OffsetClause → OffsetClause
  | .absent => .absent
  | .unnumbered left => .unnumbered (left.map s.char)
  | .unreadable text left => .unreadable (s.str text) (left.map s.char)
  | .overlong digits left => .overlong digits (left.map s.char)
  | .offset n left => .offset n (left.map s.char)

theorem numberClause_map
    (text : List Char) (numeral : Numeral) (left : List Char) :
    Dialect.numberClause (text.map s.char) numeral (left.map s.char) =
      s.clause (Dialect.numberClause text numeral left) := by
  unfold Dialect.numberClause
  split
  · simp [clause]
  · split <;> rfl

theorem readNumber_map
    (rest : List Char) (seam : Seam) :
    Dialect.readNumber (rest.map s.char) seam = s.clause (Dialect.readNumber rest seam) := by
  simp only [Dialect.readNumber, skipBlanks_map, read_map, across?_map]
  split
  · rfl
  · cases seam.across? (skipBlanks rest) (Numeral.read (skipBlanks rest)).2 with
    | none => exact s.numberClause_map _ _ _
    | some text =>
        simp only [Option.map_some, read_map]
        exact s.numberClause_map _ _ _

theorem isPrefixOf_map
    (first text : List Char) :
    (first.map s.char).isPrefixOf (text.map s.char) = first.isPrefixOf text := by
  rw [Bool.eq_iff_iff, List.isPrefixOf_iff_prefix, List.isPrefixOf_iff_prefix,
    List.prefix_map_iff_of_injective s.char_injective]

@[simp] theorem readOffset_map
    (d : Dialect) (text : List Char) (seam : Seam) :
    (s.dialect d).readOffset (text.map s.char) seam = s.clause (d.readOffset text seam) := by
  have hkeyword : (s.dialect d).offsetKeyword.toList = d.offsetKeyword.toList.map s.char :=
    s.toList_str d.offsetKeyword
  simp only [Dialect.readOffset, hkeyword, near_map, isPrefixOf_map, List.length_map,
    ← List.map_drop, readNumber_map]
  split <;> rfl

end Offsets

end Renaming

end MessageFormat
