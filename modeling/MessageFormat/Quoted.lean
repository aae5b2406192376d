import MessageFormat.Dialect
import MessageFormat.Text.Blank

/-!
# Quoted text

Text in a message is raw except for marks, the characters that have a meaning where the text
stands. A quote before a mark opens a literal run that lasts to the next single quote; two quotes
always stand for one; any other quote stands for itself.

What counts as a mark depends on the place, which a `Mode` describes. Where blanks or separators
end the text, as in the header of a placeholder, every quote opens a literal run.

**Scanning.** `scan` reads text up to the first mark outside a literal run and returns what it
means and what is left.

**Writing.** `spell` writes a text so that scanning reads it back: each run of marks and quotes
that holds a mark becomes one literal run.
-/

namespace MessageFormat

/-- Where a text stands, as far as quoting depends on it. -/
structure Mode where
  /-- The reference sign is a mark. -/
  references : Bool := false
  /-- Separators are ordinary characters. -/
  separators : Bool := true
  /-- Blanks are ordinary characters. -/
  blanks : Bool := true
  /-- The characters that end a tag are marks. -/
  tagEnds : Bool := false
deriving DecidableEq, Repr

namespace Mode

/-- The body of a message. -/
def body : Mode where

/-- A body in which the reference sign stands for the number. -/
def numericBody : Mode where
  references := true

/-- The id or the type of a placeholder. -/
def word : Mode where
  separators := false
  blanks := false

/-- The selector of a sub-message. -/
def selector : Mode where
  blanks := false

/-- The name of a tag. -/
def tagName : Mode where
  separators := false
  blanks := false
  tagEnds := true

/-- Whether a quote opens a literal run whatever follows it. -/
def quotesAnything (m : Mode) : Bool :=
  !m.blanks || !m.separators

end Mode

namespace Dialect

/-- Whether a character needs quoting in every text of this mode. -/
def isMark (d : Dialect) (m : Mode) (c : Char) : Bool :=
  c == d.opener || c == d.closer ||
    (d.tagsAllowed &&
      (c == d.tagOpener || (m.tagEnds && (c == d.tagCloser || c == d.tagSlash)))) ||
    (m.references && c == d.reference)

/-- Whether a character ends a text of this mode. -/
def stops (d : Dialect) (m : Mode) (c : Char) : Bool :=
  d.isMark m c || (!m.separators && c == d.separator) || (!m.blanks && isBlank c)

/-- Whether a quote before this character opens a literal run. -/
def opensRun (d : Dialect) (m : Mode) (c : Char) : Bool :=
  d.isMark m c || m.quotesAnything

/-- A reading with one more character of meaning in front. -/
def withChar (c : Char) (reading : List Char × List Char) : List Char × List Char :=
  (c :: reading.1, reading.2)

/-- Reads text up to its end, where `inRun` says whether a literal run is open: what the text
means, and what is left. -/
def scanFrom (d : Dialect) (m : Mode) : (inRun : Bool) → List Char → List Char × List Char
  | _, [] => ([], [])
  | false, [c] =>
      if d.stops m c then ([], [c]) else ([c], [])
  | false, c :: next :: rest =>
      if d.stops m c then
        ([], c :: next :: rest)
      else if c ≠ d.quote then
        withChar c (scanFrom d m false (next :: rest))
      else if next = d.quote then
        withChar next (scanFrom d m false rest)
      else if d.opensRun m next then
        withChar next (scanFrom d m true rest)
      else
        withChar c (scanFrom d m false (next :: rest))
  | true, [c] =>
      if c ≠ d.quote then ([c], []) else ([], [])
  | true, c :: next :: rest =>
      if c ≠ d.quote then
        withChar c (scanFrom d m true (next :: rest))
      else if next = d.quote then
        withChar next (scanFrom d m true rest)
      else
        scanFrom d m false (next :: rest)

/-- Reads text up to the first character that ends it. -/
def scan (d : Dialect) (m : Mode) (text : List Char) : List Char × List Char :=
  d.scanFrom m false text

/-- Scanning leaves the end of the text. -/
theorem scanFrom_suffix
    (d : Dialect) (m : Mode)
    (inRun : Bool) (text : List Char) :
    (d.scanFrom m inRun text).2 <:+ text := by
  fun_induction scanFrom d m inRun text with
  | case1 => exact List.suffix_rfl
  | case2 => exact List.suffix_rfl
  | case3 => exact List.nil_suffix
  | case4 => exact List.suffix_rfl
  | case5 c next rest hstop hquote ih =>
      exact ih.trans (List.suffix_cons c (next :: rest))
  | case6 c rest hstop hquote ih =>
      exact ih.trans (List.suffix_append [c, d.quote] rest)
  | case7 c next rest hstop hquote hnext hopens ih =>
      exact ih.trans (List.suffix_append [c, next] rest)
  | case8 c next rest hstop hquote hnext hopens ih =>
      exact ih.trans (List.suffix_cons c (next :: rest))
  | case9 => exact List.nil_suffix
  | case10 => exact List.nil_suffix
  | case11 c next rest hquote ih =>
      exact ih.trans (List.suffix_cons c (next :: rest))
  | case12 c rest hquote ih =>
      exact ih.trans (List.suffix_append [c, d.quote] rest)
  | case13 c next rest hquote hnext ih =>
      exact ih.trans (List.suffix_cons c (next :: rest))

theorem scan_suffix
    (d : Dialect) (m : Mode) (text : List Char) :
    (d.scan m text).2 <:+ text :=
  d.scanFrom_suffix m false text

section Scanning

variable {d : Dialect} {m : Mode} {c : Char} {text : List Char}

attribute [local simp] scanFrom

@[simp] theorem scanFrom_nil
    (inRun : Bool) :
    d.scanFrom m inRun [] = ([], []) := by
  cases inRun <;> rfl

theorem scanFrom_stop
    (hc : d.stops m c = true) :
    d.scanFrom m false (c :: text) = ([], c :: text) := by
  cases text <;> simp [hc]

theorem scanFrom_raw
    (hc : d.stops m c = false) (hquote : c ≠ d.quote) :
    d.scanFrom m false (c :: text) = withChar c (d.scanFrom m false text) := by
  cases text <;> simp [hc, hquote, withChar]

/-- Two quotes outside of a literal run stand for one. -/
theorem scanFrom_pair
    (hquote : d.stops m d.quote = false) :
    d.scanFrom m false (d.quote :: d.quote :: text) =
      withChar d.quote (d.scanFrom m false text) := by
  simp [hquote]

/-- A quote before a mark opens a literal run. -/
theorem scanFrom_open
    (hquote : d.stops m d.quote = false) (hne : c ≠ d.quote) (hopens : d.opensRun m c = true) :
    d.scanFrom m false (d.quote :: c :: text) = withChar c (d.scanFrom m true text) := by
  simp [hquote, hne, hopens]

/-- Any other quote stands for itself. -/
theorem scanFrom_lone
    (hquote : d.stops m d.quote = false)
    (hnext : ∀ next, text.head? = some next → next ≠ d.quote ∧ d.opensRun m next = false) :
    d.scanFrom m false (d.quote :: text) = withChar d.quote (d.scanFrom m false text) := by
  cases text with
  | nil =>
      simp [hquote, withChar]
  | cons next rest =>
      obtain ⟨hne, hopens⟩ := hnext next rfl
      simp [hquote, hne, hopens]

theorem scanFrom_run_raw
    (hne : c ≠ d.quote) :
    d.scanFrom m true (c :: text) = withChar c (d.scanFrom m true text) := by
  cases text <;> simp [hne, withChar]

/-- Two quotes inside a literal run stand for one. -/
theorem scanFrom_run_pair :
    d.scanFrom m true (d.quote :: d.quote :: text) =
      withChar d.quote (d.scanFrom m true text) := by
  simp

/-- A single quote closes a literal run. -/
theorem scanFrom_run_close
    (hnext : text.head? ≠ some d.quote) :
    d.scanFrom m true (d.quote :: text) = d.scanFrom m false text := by
  cases text with
  | nil =>
      simp
  | cons next rest =>
      have hne : next ≠ d.quote := by
        simpa using hnext
      simp [hne]

/-- A character that does not end a text is taken. -/
theorem scan_suffix_tail
    (hc : d.stops m c = false) :
    (d.scan m (c :: text)).2 <:+ text := by
  unfold scan
  by_cases hquote : c = d.quote
  · subst hquote
    cases text with
    | nil =>
        simp [hc]
    | cons next rest =>
        have hrest := List.suffix_cons next rest
        by_cases hnext : next = d.quote
        · subst hnext
          rw [scanFrom_pair hc]
          exact (d.scanFrom_suffix m false rest).trans hrest
        · cases hopens : d.opensRun m next with
          | true =>
              rw [scanFrom_open hc hnext hopens]
              exact (d.scanFrom_suffix m true rest).trans hrest
          | false =>
              rw [scanFrom_lone hc (by simp [hnext, hopens])]
              exact d.scanFrom_suffix m false (next :: rest)
  · rw [scanFrom_raw hc hquote]
    exact d.scanFrom_suffix m false text

end Scanning

end Dialect

namespace Quoted

/-- Writes a run of marks and quotes: quotes are doubled, and if the run is `live`, that is, holds
a mark, it is enclosed in quotes. -/
def spellRun (quote : Char) (live : Bool) (run : List Char) : List Char :=
  let doubled := run.flatMap fun c => if c = quote then [c, c] else [c]
  if live then
    quote :: doubled ++ [quote]
  else
    doubled

/-- Writes a text after a `run` of marks and quotes that is still open. -/
def spellFrom (quote : Char) (isMark : Char → Bool) :
    Bool → List Char → List Char → List Char
  | live, run, [] => spellRun quote live run
  | live, run, c :: rest =>
      if c = quote then
        spellFrom quote isMark live (run ++ [c]) rest
      else if isMark c then
        spellFrom quote isMark true (run ++ [c]) rest
      else
        spellRun quote live run ++ c :: spellFrom quote isMark false [] rest

/-- Writes a text so that the characters for which `isMark` holds lose their meaning. -/
def spell (quote : Char) (isMark : Char → Bool) (text : List Char) : List Char :=
  spellFrom quote isMark false [] text

end Quoted

namespace Dialect

/-- Writes a text for a place of this mode. -/
def spell (d : Dialect) (m : Mode) (text : String) : String :=
  String.ofList (Quoted.spell d.quote (d.stops m) text.toList)

end Dialect

end MessageFormat
