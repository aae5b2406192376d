import MessageFormat.Proofs.Quoting

/-!
# Quoted texts side by side

Each text is quoted by itself. If one ends in a literal run and the next begins with one, the quote
that closes the first and the quote that opens the second stand side by side, and two quotes in a
literal run stand for one. So the two written texts are the spelling of one text that has a quote
more, between the two (`spell_append`); in every other case they are the spelling of the two texts
put together.

A text ends in a literal run if its last character besides quotes is a mark, and begins with one if
its first is (`endsInMark`, `startsInMark`).
-/

namespace MessageFormat

namespace Quoted

/-- Whether the first character of a text besides quotes is a mark. -/
def startsInMark (quote : Char) (isMark : Char → Bool) (text : List Char) : Bool :=
  text.foldr (fun c rest => if c = quote then rest else isMark c) false

/-- Whether the last character of a text besides quotes is a mark, where `live` says it of what is
in front of the text. -/
def endsInMarkFrom (quote : Char) (isMark : Char → Bool) (live : Bool) (text : List Char) : Bool :=
  text.foldl (fun live c => if c = quote then live else isMark c) live

/-- Whether the last character of a text besides quotes is a mark. -/
def endsInMark (quote : Char) (isMark : Char → Bool) (text : List Char) : Bool :=
  endsInMarkFrom quote isMark false text

/-- A literal run that ends touches one that begins, and leaves a quote between them. -/
def seam (quote : Char) (ends starts : Bool) : List Char :=
  if ends && starts then [quote] else []

section Runs

variable {quote : Char} {isMark : Char → Bool} {live live' : Bool} {run run' : List Char}

theorem doubled_append
    (quote : Char) (run run' : List Char) :
    doubled quote (run ++ run') = doubled quote run ++ doubled quote run' := by
  simp [doubled]

/-- A run without a mark holds quotes only. -/
theorem IsRun.eq_quote
    (h : IsRun quote isMark false run) :
    ∀ c ∈ run, c = quote := by
  intro c hc
  by_cases heq : c = quote
  · exact heq
  · have hlive := h.live_iff.mpr ⟨c, hc, heq⟩
    cases hlive

/-- Doubled quotes may stand before or behind another quote. -/
theorem quote_doubled
    (hrun : ∀ c ∈ run, c = quote) :
    quote :: doubled quote run = doubled quote run ++ [quote] := by
  induction run with
  | nil =>
      rfl
  | cons c run ih =>
      obtain rfl := hrun c List.mem_cons_self
      rw [doubled_cons_quote, List.cons_append, List.cons_append,
        ← ih (fun c hc => hrun c (List.mem_cons_of_mem _ hc))]

/-- Two written runs side by side are one. Its literal run reaches over the quote between them if
both hold a mark. -/
theorem spellRun_append
    (h : IsRun quote isMark live run) (h' : IsRun quote isMark live' run') :
    spellRun quote live run ++ spellRun quote live' run' =
      spellRun quote (live || live') (run ++ seam quote live live' ++ run') := by
  simp only [spellRun_eq, seam]
  cases live with
  | false =>
      cases live' with
      | false => simp [doubled_append]
      | true =>
          have hshift := quote_doubled h.eq_quote
          simp only [doubled_append, Bool.false_or, Bool.false_and, if_true, if_false,
            List.append_nil, Bool.false_eq_true, List.append_assoc]
          rw [← List.cons_append, ← List.cons_append, hshift]
          simp
  | true =>
      cases live' with
      | false =>
          have hshift := quote_doubled h'.eq_quote
          simp [doubled_append, ← hshift]
      | true => simp [doubled_append, doubled_cons_quote]

theorem spellRun_append_spellFrom
    (text : List Char) (h : IsRun quote isMark live run) (h' : IsRun quote isMark live' run') :
    spellRun quote live run ++ spellFrom quote isMark live' run' text =
      spellFrom quote isMark (live || live')
        (run ++ seam quote live (live' || startsInMark quote isMark text) ++ run') text := by
  induction text generalizing live' run' with
  | nil =>
      rw [spellFrom, spellFrom, spellRun_append h h']
      simp [startsInMark]
  | cons c text ih =>
      rw [spellFrom, spellFrom]
      by_cases hc : c = quote
      · subst hc
        rw [if_pos rfl, if_pos rfl, ih h'.concat_quote]
        simp [startsInMark]
      · rw [if_neg hc, if_neg hc]
        cases hmark : isMark c with
        | true =>
            rw [if_pos rfl, if_pos rfl, ih (h'.concat_mark hc hmark)]
            simp [startsInMark, hc, hmark]
        | false =>
            rw [if_neg (by simp), if_neg (by simp), ← List.append_assoc, spellRun_append h h']
            simp [startsInMark, hc, hmark]

end Runs

/-- A written text in front of another is the spelling of both and the quote between them, after a
run that is still open. -/
theorem spellFrom_append
    {quote : Char} {isMark : Char → Bool} (s t : List Char) {live : Bool} {run : List Char}
    (h : IsRun quote isMark live run) :
    spellFrom quote isMark live run s ++ spell quote isMark t =
      spellFrom quote isMark live run
        (s ++ seam quote (endsInMarkFrom quote isMark live s) (startsInMark quote isMark t) ++
          t) := by
  induction s generalizing live run with
  | nil =>
      have hseam := spellRun_append_spellFrom t h (IsRun.nil quote isMark)
      rw [spellFrom, spell, hseam]
      cases live with
      | false => simp [seam, endsInMarkFrom]
      | true =>
          cases startsInMark quote isMark t with
          | false => simp [seam, endsInMarkFrom]
          | true => simp [seam, endsInMarkFrom, spellFrom]
  | cons c s ih =>
      rw [spellFrom, List.cons_append, List.cons_append, spellFrom]
      by_cases hc : c = quote
      · subst hc
        rw [if_pos rfl, if_pos rfl, ih h.concat_quote]
        simp [endsInMarkFrom]
      · rw [if_neg hc, if_neg hc]
        cases hmark : isMark c with
        | true =>
            rw [if_pos rfl, if_pos rfl, ih (h.concat_mark hc hmark)]
            simp [endsInMarkFrom, hc, hmark]
        | false =>
            rw [if_neg (by simp), if_neg (by simp), List.append_assoc, List.cons_append,
              ih (IsRun.nil quote isMark)]
            simp [endsInMarkFrom, hc, hmark]

/-- Two texts that are quoted side by side are the spelling of both, with a quote between them
if one ends in a mark and the other starts in one. -/
theorem spell_append
    (quote : Char) (isMark : Char → Bool) (s t : List Char) :
    spell quote isMark s ++ spell quote isMark t =
      spell quote isMark
        (s ++ seam quote (endsInMark quote isMark s) (startsInMark quote isMark t) ++ t) :=
  spellFrom_append s t (IsRun.nil quote isMark)

/-- The quote between two texts does not change how they start. -/
theorem startsInMark_append_seam
    (quote : Char) (isMark : Char → Bool) (ends starts : Bool) (s t : List Char) :
    startsInMark quote isMark (s ++ seam quote ends starts ++ t) =
      startsInMark quote isMark (s ++ t) := by
  unfold seam
  split
  · simp [startsInMark]
  · simp

end Quoted

end MessageFormat
