import MessageFormat.Quoted

/-!
# Quoting is undone by scanning

A text that is written for a place is read back there, up to the first character after it that ends
texts of the place (`scan_spell`). Writing and reading do not have to agree on what a mark is:
it is enough that writing quotes whatever stops reading, and that a quote before anything that is
quoted opens a literal run (`Covers`).

Writing collects marks and quotes in a run until a character comes that is neither. The run is read
back as a whole: quotes at its start come as pairs, its first mark opens a literal run, and the
quote after its last character closes it.
-/

namespace MessageFormat

namespace Dialect

/-- The characters that writing quotes fit a mode of reading. -/
structure Covers (d : Dialect) (m : Mode) (isMark : Char → Bool) : Prop where
  /-- What stops reading is quoted. -/
  stop : ∀ c, d.stops m c = true → isMark c = true
  /-- A quote before what is quoted opens a literal run. -/
  run : ∀ c, isMark c = true → d.opensRun m c = true
  /-- Quotes do not stop reading. -/
  quote : d.stops m d.quote = false

/-- A text in this mode ends before what follows. -/
def EndsBefore (d : Dialect) (m : Mode) (after : List Char) : Prop :=
  ∀ c, after.head? = some c → d.stops m c = true

/-- A reading with more characters of meaning in front. -/
def withChars (text : List Char) (reading : List Char × List Char) : List Char × List Char :=
  text.foldr withChar reading

@[simp] theorem withChars_nil
    (reading : List Char × List Char) :
    withChars [] reading = reading := by
  rfl

@[simp] theorem withChars_cons
    (c : Char) (text : List Char) (reading : List Char × List Char) :
    withChars (c :: text) reading = withChar c (withChars text reading) := by
  rfl

theorem withChars_eq
    (text : List Char) (reading : List Char × List Char) :
    withChars text reading = (text ++ reading.1, reading.2) := by
  induction text with
  | nil =>
      rfl
  | cons c text ih =>
      rw [withChars_cons, ih]
      rfl

theorem EndsBefore.nil
    (d : Dialect) (m : Mode) :
    d.EndsBefore m [] := by
  intro c hc
  simp at hc

theorem endsBefore_cons
    {d : Dialect} {m : Mode} {c : Char} {rest : List Char} :
    d.EndsBefore m (c :: rest) ↔ d.stops m c = true := by
  constructor
  · intro h
    exact h c rfl
  · intro h c' hc'
    obtain rfl : c = c' := by
      simpa using hc'
    exact h

theorem EndsBefore.scanFrom_eq
    {d : Dialect} {m : Mode} {after : List Char}
    (h : d.EndsBefore m after) :
    d.scanFrom m false after = ([], after) := by
  cases after with
  | nil =>
      exact scanFrom_nil false
  | cons c rest =>
      exact scanFrom_stop (endsBefore_cons.mp h)

theorem EndsBefore.head?_ne_quote
    {d : Dialect} {m : Mode} {after : List Char}
    (h : d.EndsBefore m after) (hquote : d.stops m d.quote = false) :
    after.head? ≠ some d.quote := by
  intro hhead
  have hstop := h d.quote hhead
  simp [hquote] at hstop

end Dialect

namespace Quoted

open Dialect

/-- What writing keeps in a run: marks and quotes, with the note whether there is a mark. -/
structure IsRun (quote : Char) (isMark : Char → Bool) (live : Bool) (run : List Char) : Prop where
  special : ∀ c ∈ run, c ≠ quote → isMark c = true
  live_iff : live = true ↔ ∃ c ∈ run, c ≠ quote

theorem IsRun.nil
    (quote : Char) (isMark : Char → Bool) :
    IsRun quote isMark false [] := by
  constructor <;> simp

theorem IsRun.concat_quote
    {quote : Char} {isMark : Char → Bool} {live : Bool} {run : List Char}
    (h : IsRun quote isMark live run) :
    IsRun quote isMark live (run ++ [quote]) := by
  constructor
  · intro c hc hne
    rcases List.mem_append.mp hc with hrun | hlast
    · exact h.special c hrun hne
    · exact absurd (List.mem_singleton.mp hlast) hne
  · rw [h.live_iff]
    constructor
    · rintro ⟨c, hc, hne⟩
      exact ⟨c, List.mem_append_left _ hc, hne⟩
    · rintro ⟨c, hc, hne⟩
      rcases List.mem_append.mp hc with hrun | hlast
      · exact ⟨c, hrun, hne⟩
      · exact absurd (List.mem_singleton.mp hlast) hne

theorem IsRun.concat_mark
    {quote : Char} {isMark : Char → Bool} {live : Bool} {run : List Char} {c : Char}
    (h : IsRun quote isMark live run) (hne : c ≠ quote) (hmark : isMark c = true) :
    IsRun quote isMark true (run ++ [c]) := by
  constructor
  · intro c' hc' hne'
    rcases List.mem_append.mp hc' with hrun | hlast
    · exact h.special c' hrun hne'
    · obtain rfl := List.mem_singleton.mp hlast
      exact hmark
  · simp only [true_iff]
    exact ⟨c, by simp, hne⟩

/-- Quotes are doubled. -/
def doubled (quote : Char) (run : List Char) : List Char :=
  run.flatMap fun c => if c = quote then [c, c] else [c]

@[simp] theorem doubled_nil
    (quote : Char) :
    doubled quote [] = [] := by
  rfl

theorem doubled_cons_quote
    (quote : Char) (run : List Char) :
    doubled quote (quote :: run) = quote :: quote :: doubled quote run := by
  simp [doubled]

theorem doubled_cons_of_ne
    {quote c : Char} (run : List Char)
    (hne : c ≠ quote) :
    doubled quote (c :: run) = c :: doubled quote run := by
  simp [doubled, hne]

theorem spellRun_eq
    (quote : Char) (live : Bool) (run : List Char) :
    spellRun quote live run =
      if live then
        quote :: (doubled quote run ++ [quote])
      else
        doubled quote run := by
  rfl

section Reading

variable {d : Dialect} {m : Mode} {isMark : Char → Bool}

/-- Inside of a literal run, doubled quotes are read back up to the quote that closes it. -/
theorem scanFrom_doubled_in_run
    (run : List Char) {after : List Char}
    (hafter : after.head? ≠ some d.quote) :
    d.scanFrom m true (doubled d.quote run ++ d.quote :: after) =
      withChars run (d.scanFrom m false after) := by
  induction run with
  | nil =>
      exact scanFrom_run_close hafter
  | cons c run ih =>
      by_cases hc : c = d.quote
      · subst hc
        rw [doubled_cons_quote]
        simp only [List.cons_append, withChars_cons]
        rw [scanFrom_run_pair, ih]
      · rw [doubled_cons_of_ne run hc]
        simp only [List.cons_append, withChars_cons]
        rw [scanFrom_run_raw hc, ih]

/-- Outside of a literal run, a run of quotes is read back as it was doubled. -/
theorem scanFrom_doubled
    (hquote : d.stops m d.quote = false)
    {run : List Char} (hrun : ∀ c ∈ run, c = d.quote) (after : List Char) :
    d.scanFrom m false (doubled d.quote run ++ after) =
      withChars run (d.scanFrom m false after) := by
  induction run with
  | nil =>
      rfl
  | cons c run ih =>
      obtain rfl := hrun c List.mem_cons_self
      rw [doubled_cons_quote]
      simp only [List.cons_append, withChars_cons]
      rw [scanFrom_pair hquote, ih (fun c hc => hrun c (List.mem_cons_of_mem _ hc))]

/-- A run with a mark is read back from the quotes around it: those at its start make pairs with the
quote in front, until the mark opens a literal run. -/
theorem scanFrom_quoted_run
    (hcovers : d.Covers m isMark)
    {run after : List Char}
    (hspecial : ∀ c ∈ run, c ≠ d.quote → isMark c = true)
    (hlive : ∃ c ∈ run, c ≠ d.quote)
    (hafter : after.head? ≠ some d.quote) :
    d.scanFrom m false (d.quote :: (doubled d.quote run ++ d.quote :: after)) =
      withChars run (d.scanFrom m false after) := by
  induction run with
  | nil =>
      simp at hlive
  | cons c run ih =>
      have hrest : ∀ c ∈ run, c ≠ d.quote → isMark c = true :=
        fun c hc => hspecial c (List.mem_cons_of_mem _ hc)
      by_cases hc : c = d.quote
      · subst hc
        have hliveRest : ∃ c ∈ run, c ≠ d.quote := by
          obtain ⟨c, hc, hne⟩ := hlive
          rcases List.mem_cons.mp hc with heq | hmem
          · exact absurd heq hne
          · exact ⟨c, hmem, hne⟩
        rw [doubled_cons_quote]
        simp only [List.cons_append, withChars_cons]
        rw [scanFrom_pair hcovers.quote, ih hrest hliveRest]
      · have hopens : d.opensRun m c = true :=
          hcovers.run c (hspecial c List.mem_cons_self hc)
        rw [doubled_cons_of_ne run hc]
        simp only [List.cons_append, withChars_cons]
        rw [scanFrom_open hcovers.quote hc hopens, scanFrom_doubled_in_run run hafter]

theorem scanFrom_spellRun
    (hcovers : d.Covers m isMark)
    {live : Bool} {run after : List Char}
    (hrun : IsRun d.quote isMark live run)
    (hafter : after.head? ≠ some d.quote) :
    d.scanFrom m false (spellRun d.quote live run ++ after) =
      withChars run (d.scanFrom m false after) := by
  rw [spellRun_eq]
  cases live with
  | true =>
      have hlive := hrun.live_iff.mp rfl
      simpa using scanFrom_quoted_run hcovers hrun.special hlive hafter
  | false =>
      have hquotes : ∀ c ∈ run, c = d.quote := by
        intro c hc
        by_cases heq : c = d.quote
        · exact heq
        · exact absurd (hrun.live_iff.mpr ⟨c, hc, heq⟩) (by simp)
      simpa using scanFrom_doubled hcovers.quote hquotes after

theorem scanFrom_spellFrom
    (hcovers : d.Covers m isMark)
    (text : List Char) {live : Bool} {run after : List Char}
    (hrun : IsRun d.quote isMark live run)
    (hafter : d.EndsBefore m after) :
    d.scanFrom m false (spellFrom d.quote isMark live run text ++ after) =
      (run ++ text, after) := by
  induction text generalizing live run with
  | nil =>
      rw [spellFrom, scanFrom_spellRun hcovers hrun (hafter.head?_ne_quote hcovers.quote),
        hafter.scanFrom_eq, withChars_eq]
  | cons c text ih =>
      rw [spellFrom]
      split
      · next hc =>
          subst hc
          rw [ih hrun.concat_quote]
          simp
      · next hc =>
          split
          · next hmark =>
              rw [ih (hrun.concat_mark hc hmark)]
              simp
          · next hmark =>
              have hraw : d.stops m c = false := by
                cases hstop : d.stops m c with
                | false => rfl
                | true => exact absurd (hcovers.stop c hstop) hmark
              have hhead : (c :: (spellFrom d.quote isMark false [] text ++ after)).head? ≠
                  some d.quote := by
                simpa using hc
              rw [List.append_assoc, List.cons_append, scanFrom_spellRun hcovers hrun hhead,
                scanFrom_raw hraw hc, ih (IsRun.nil d.quote isMark), withChars_eq]
              rfl

/-- What is written for a place is read back there. -/
theorem scan_spell
    (hcovers : d.Covers m isMark)
    (text : List Char) {after : List Char}
    (hafter : d.EndsBefore m after) :
    d.scan m (spell d.quote isMark text ++ after) = (text, after) :=
  scanFrom_spellFrom hcovers text (IsRun.nil d.quote isMark) hafter

end Reading

theorem spellRun_nil
    (quote : Char) :
    spellRun quote false [] = [] := by
  rfl

theorem spellRun_head?
    {quote : Char} {isMark : Char → Bool} {live : Bool} {run : List Char}
    (hrun : IsRun quote isMark live run) (hne : run ≠ []) :
    (spellRun quote live run).head? = some quote := by
  rw [spellRun_eq]
  cases live with
  | true =>
      rfl
  | false =>
      cases run with
      | nil =>
          exact absurd rfl hne
      | cons c run =>
          by_cases hc : c = quote
          · subst hc
            rw [if_neg (by simp), doubled_cons_quote]
            rfl
          · exact absurd (hrun.live_iff.mpr ⟨c, List.mem_cons_self, hc⟩) (by simp)

/-- What is written after an open run starts with a quote. -/
theorem spellFrom_head?
    {quote : Char} {isMark : Char → Bool}
    (text : List Char) {live : Bool} {run : List Char}
    (hrun : IsRun quote isMark live run) (hne : run ≠ []) :
    (spellFrom quote isMark live run text).head? = some quote := by
  induction text generalizing live run with
  | nil =>
      exact spellRun_head? hrun hne
  | cons c text ih =>
      rw [spellFrom]
      split
      · next hc =>
          subst hc
          exact ih hrun.concat_quote (by simp)
      · next hc =>
          split
          · next hmark =>
              exact ih (hrun.concat_mark hc hmark) (by simp)
          · rw [List.head?_append, spellRun_head? hrun hne]
            rfl

theorem spell_nil
    (quote : Char) (isMark : Char → Bool) :
    spell quote isMark [] = [] := by
  rfl

/-- A character that is neither a mark nor a quote is written as it is. -/
theorem spell_cons_raw
    {quote c : Char} {isMark : Char → Bool} (text : List Char)
    (hquote : c ≠ quote) (hmark : isMark c = false) :
    spell quote isMark (c :: text) = c :: spell quote isMark text := by
  simp [spell, spellFrom, hquote, hmark, spellRun_nil]

/-- A written text starts with a quote or with its first character. -/
theorem spell_cons_head?
    (quote : Char) (isMark : Char → Bool) (c : Char) (text : List Char) :
    (spell quote isMark (c :: text)).head? =
      some (if c = quote ∨ isMark c = true then quote else c) := by
  by_cases hquote : c = quote
  · subst hquote
    rw [if_pos (Or.inl rfl), spell, spellFrom, if_pos rfl]
    exact spellFrom_head? text (IsRun.nil c isMark).concat_quote (by simp)
  · cases hmark : isMark c with
    | true =>
        rw [if_pos (Or.inr rfl), spell, spellFrom, if_neg hquote, if_pos hmark]
        exact spellFrom_head? text ((IsRun.nil quote isMark).concat_mark hquote hmark) (by simp)
    | false =>
        rw [if_neg (by simp [hquote]), spell_cons_raw text hquote hmark]
        rfl

end Quoted

namespace Dialect

/-- No delimiter is a blank. -/
def Visible (d : Dialect) : Prop :=
  ∀ role, isBlank (d.char role) = false

instance (d : Dialect) : Decidable d.Visible :=
  decidable_of_iff (∀ role ∈ Role.all, isBlank (d.char role) = false)
    ⟨fun h role => h role role.mem_all, fun h role _ => h role⟩

/-- Quotes stop no text, unless blanks do and the quote is one. -/
theorem stops_quote
    (d : Dialect) (m : Mode)
    (hblank : m.blanks = true ∨ isBlank d.quote = false) :
    d.stops m d.quote = false := by
  have hopener : d.quote ≠ d.opener := d.char_ne .quote .opener
  have hcloser : d.quote ≠ d.closer := d.char_ne .quote .closer
  have htagOpener : d.quote ≠ d.tagOpener := d.char_ne .quote .tagOpener
  have htagCloser : d.quote ≠ d.tagCloser := d.char_ne .quote .tagCloser
  have htagSlash : d.quote ≠ d.tagSlash := d.char_ne .quote .tagSlash
  have hseparator : d.quote ≠ d.separator := d.char_ne .quote .separator
  have hreference : d.quote ≠ d.reference := d.char_ne .quote .reference
  rcases hblank with hblanks | hquote
  · simp [stops, isMark, hopener, hcloser, htagOpener, htagCloser, htagSlash, hseparator,
      hreference, hblanks]
  · simp [stops, isMark, hopener, hcloser, htagOpener, htagCloser, htagSlash, hseparator,
      hreference, hquote]

/-- Where only marks stop a text, quoting them is enough. -/
theorem covers_of_marks
    (d : Dialect) {m : Mode}
    (hseparators : m.separators = true) (hblanks : m.blanks = true) :
    d.Covers m (d.stops m) where
  stop := fun _ hstop => hstop
  run := by
    intro c hstop
    simpa [stops, opensRun, hseparators, hblanks] using Or.inl hstop
  quote := d.stops_quote m (Or.inl hblanks)

/-- Where every quote opens a literal run, more may be quoted than stops a text. -/
theorem covers_of_quotesAnything
    (d : Dialect) {m : Mode} {isMark : Char → Bool}
    (hanything : m.quotesAnything = true)
    (hstop : ∀ c, d.stops m c = true → isMark c = true)
    (hquote : isBlank d.quote = false) :
    d.Covers m isMark where
  stop := hstop
  run := by
    intro c _
    simp [opensRun, hanything]
  quote := d.stops_quote m (Or.inr hquote)

theorem covers_body
    (d : Dialect) :
    d.Covers .body (d.stops .body) :=
  d.covers_of_marks rfl rfl

theorem covers_numericBody
    (d : Dialect) :
    d.Covers .numericBody (d.stops .numericBody) :=
  d.covers_of_marks rfl rfl

theorem covers_word
    {d : Dialect} (hquote : isBlank d.quote = false) :
    d.Covers .word (d.stops .word) :=
  d.covers_of_quotesAnything rfl (fun _ hstop => hstop) hquote

theorem covers_tagName
    {d : Dialect} (hquote : isBlank d.quote = false) :
    d.Covers .tagName (d.stops .tagName) :=
  d.covers_of_quotesAnything rfl (fun _ hstop => hstop) hquote

/-- A selector is written as an id is, although separators do not end it. -/
theorem covers_selector
    {d : Dialect} (hquote : isBlank d.quote = false) :
    d.Covers .selector (d.stops .word) := by
  refine d.covers_of_quotesAnything rfl ?_ hquote
  intro c hstop
  simp only [stops, isMark, Mode.selector, Mode.word] at hstop ⊢
  simp only [Bool.or_eq_true] at hstop ⊢
  rcases hstop with (hmark | hseparator) | hblank
  · exact Or.inl (Or.inl hmark)
  · simp at hseparator
  · exact Or.inr hblank

end Dialect

end MessageFormat
