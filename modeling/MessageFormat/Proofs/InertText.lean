import MessageFormat.Proofs.Derivation.Agreement

/-!
# Texts that mean themselves

A text is inert if nothing in it is live: no opener, no tag opener where tags are read, and no quote
in front of another quote or of a closer (`Dialect.Inert`). Every other character may stand anywhere
in it, a closer that closes nothing and a quote that quotes nothing included.

An inert text is read in pieces all the same. Each closer is a piece by itself, and between two
of them the scanner takes what stands there as it is (`Dialect.Inert.scan_eq`). Neighbouring
text is one node, so what is read is the whole text (`Reader.readValue_inert`).
-/

namespace MessageFormat

/-- A text as a message: one node, or none if the text is empty. -/
def Message.ofText (s : String) : Message :=
  if s = "" then [] else [.text s]

/-- Text in front of a text makes one text. -/
theorem Message.before_ofText
    (s t : String) :
    (Node.text s).before (ofText t) = ofText (s ++ t) := by
  by_cases hs : s = ""
  · subst hs
    rw [String.empty_append]
    rfl
  · by_cases ht : t = ""
    · subst ht
      simp [Node.before, ofText, hs]
    · simp [Node.before, ofText, hs, ht]

namespace Dialect

variable {d : Dialect} {text rest : List Char} {c : Char}

/-- Nothing in a text is live. -/
structure Inert (d : Dialect) (text : List Char) : Prop where
  opener : d.opener ∉ text
  tagOpener : d.tagsAllowed = true → d.tagOpener ∉ text
  quote_quote : ¬ [d.quote, d.quote] <:+: text
  quote_closer : ¬ [d.quote, d.closer] <:+: text

theorem Inert.of_suffix
    (h : d.Inert text) (hrest : rest <:+ text) :
    d.Inert rest where
  opener hmem := h.opener (hrest.mem hmem)
  tagOpener htags hmem := h.tagOpener htags (hrest.mem hmem)
  quote_quote hpair := h.quote_quote (hpair.trans hrest.isInfix)
  quote_closer hpair := h.quote_closer (hpair.trans hrest.isInfix)

theorem Inert.tail
    (h : d.Inert (c :: text)) :
    d.Inert text :=
  h.of_suffix (List.suffix_cons c text)

/-- Only closers end a piece of an inert text. -/
theorem Inert.stops_eq_false
    (h : d.Inert text) (hmem : c ∈ text) (hcloser : c ≠ d.closer) :
    d.stops .body c = false := by
  have hopener : c ≠ d.opener := by
    rintro rfl
    exact h.opener hmem
  have htagOpener : d.tagsAllowed = true → c ≠ d.tagOpener := by
    rintro htags rfl
    exact h.tagOpener htags hmem
  simp only [stops, isMark, Mode.body]
  grind

/-- What follows a quote in an inert text leaves the quote alone. -/
theorem Inert.not_opensRun
    (h : d.Inert (d.quote :: text)) :
    ∀ next, text.head? = some next → next ≠ d.quote ∧ d.opensRun .body next = false := by
  intro next hnext
  obtain ⟨rest, rfl⟩ : ∃ rest, text = next :: rest := by
    simpa [List.head?_eq_some_iff] using hnext
  have hpair : [d.quote, next] <:+: d.quote :: next :: rest :=
    (List.prefix_append [d.quote, next] rest).isInfix
  have hquote : next ≠ d.quote := by
    rintro rfl
    exact h.quote_quote hpair
  have hcloser : next ≠ d.closer := by
    rintro rfl
    exact h.quote_closer hpair
  have hstops := h.stops_eq_false (List.mem_cons_of_mem _ List.mem_cons_self) hcloser
  exact ⟨hquote, by simpa [stops, opensRun, Mode.quotesAnything, Mode.body] using hstops⟩

/-- The scanner takes an inert text as it is up to the first closer. -/
theorem Inert.scan_eq
    (h : d.Inert text) :
    d.scan .body text = (text.takeWhile (· ≠ d.closer), text.dropWhile (· ≠ d.closer)) := by
  unfold scan
  induction text with
  | nil => rfl
  | cons c text ih =>
      by_cases hcloser : c = d.closer
      · subst hcloser
        rw [scanFrom_stop (by simp [stops, isMark])]
        simp
      · have hstops := h.stops_eq_false List.mem_cons_self hcloser
        have hone : d.scanFrom .body false (c :: text) =
            withChar c (d.scanFrom .body false text) := by
          by_cases hquote : c = d.quote
          · subst hquote
            exact scanFrom_lone hstops h.not_opensRun
          · exact scanFrom_raw hstops hquote
        rw [hone, ih h.tail]
        simp [withChar, hcloser]

end Dialect

namespace Context

variable {cx : Context} {text : List Char}

theorem mode_of_nothing
    (h : cx.enclosing = .nothing) :
    cx.mode = .body := by
  simp [mode, referent, h]

/-- A body that nothing encloses is read as it is if it is inert. -/
theorem reads_inert
    (henclosing : cx.enclosing = .nothing) (h : cx.dialect.Inert text) (k : List Nat) :
    Reads cx ⟨text, k⟩ (.body ⟨Message.ofText (String.ofList text), false⟩) ⟨[], k⟩ := by
  induction hlength : text.length using Nat.strongRecOn generalizing text with
  | ind n ih =>
  subst hlength
  cases text with
  | nil => exact Reads.bodyAtEnd rfl
  | cons c text =>
      have hends : cx.endsBody c = false := by
        simp [endsBody, henclosing]
      by_cases hcloser : c = cx.dialect.closer
      · -- A closer that closes nothing is text by itself.
        have hatom : cx.atom? c text.head? = some (.text c.toString) := by
          simp [atom?, hcloser]
        have hpiece : Reads cx ⟨c :: text, k⟩ (.piece c (.node (.text c.toString))) ⟨text, k⟩ :=
          Reads.atom (p := ⟨c :: text, k⟩) hatom
        have hrest := ih text.length (by simp) h.tail rfl
        have hbody := Reads.bodyNode rfl hends hpiece hrest
        have hwhole : c.toString ++ String.ofList text = String.ofList (c :: text) := by
          simp
        rwa [Body.before, Message.before_ofText, hwhole] at hbody
      · have hstops := h.stops_eq_false List.mem_cons_self hcloser
        rw [← mode_of_nothing henclosing] at hstops
        have hscan : Place.scan ⟨c :: text, k⟩ cx.dialect cx.mode =
            (String.ofList ((c :: text).takeWhile (· ≠ cx.dialect.closer)),
              ⟨(c :: text).dropWhile (· ≠ cx.dialect.closer), k⟩) := by
          simp only [Place.scan, mode_of_nothing henclosing, h.scan_eq]
        have hsuffix : (c :: text).dropWhile (· ≠ cx.dialect.closer) <:+ text := by
          rw [List.dropWhile_cons_of_pos (by simpa using hcloser)]
          exact List.dropWhile_suffix _
        have hrest := ih _ (Nat.lt_succ_of_le hsuffix.length_le) (h.tail.of_suffix hsuffix) rfl
        have hpiece : Reads cx ⟨c :: text, k⟩ _ _ := Reads.text (p := ⟨c :: text, k⟩) hstops
        rw [hscan] at hpiece
        have hbody := Reads.bodyNode rfl hends hpiece hrest
        have hwhole : String.ofList ((c :: text).takeWhile (· ≠ cx.dialect.closer)) ++
            String.ofList ((c :: text).dropWhile (· ≠ cx.dialect.closer)) =
              String.ofList (c :: text) := by
          rw [← String.ofList_append, List.takeWhile_append_dropWhile]
        rwa [Body.before, Message.before_ofText, hwhole] at hbody

end Context

/-- A text in which nothing is live is read as itself, in one node and without a note. -/
theorem Reader.readValue_inert
    {r : Reader} {v : Value}
    (hsize : ¬ r.Refuses v.display.toList) (hinert : r.dialect.Inert v.display.toList) :
    r.readValue v = pure (if v.display = "" then [] else [.text v.display]) := by
  have hreads : Context.Reads r.context ⟨v.display.toList, []⟩
      (.body ⟨Message.ofText v.display, false⟩) ⟨[], []⟩ := by
    have hnothing : r.context.enclosing = .nothing := rfl
    simpa using Context.reads_inert hnothing hinert []
  have hread := read_eq_ok_iff.mpr ⟨hsize, false, hreads⟩
  simp only [readValue, hread]
  rfl

/-- Closers that close nothing, quotes that quote nothing, a separator and a reference sign. -/
def strayClosers : Value :=
  .str "it's\x7d, '#'a' /\x7d'"

theorem Reader.readValue_inert_strayClosers :
    ¬ Refuses ⟨.standard, 16, 0⟩ strayClosers.display.toList ∧
      Dialect.standard.Inert strayClosers.display.toList ∧
      readValue ⟨.standard, 16, 0⟩ strayClosers = pure [.text "it's\x7d, '#'a' /\x7d'"] := by
  have hsize : ¬ Refuses ⟨.standard, 16, 0⟩ strayClosers.display.toList := by
    unfold Refuses
    decide +kernel
  have hinert : Dialect.standard.Inert strayClosers.display.toList :=
    ⟨by decide +kernel, by decide +kernel, by decide +kernel, by decide +kernel⟩
  exact ⟨hsize, hinert, readValue_inert hsize hinert⟩

end MessageFormat
