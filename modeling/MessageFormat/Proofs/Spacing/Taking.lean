import MessageFormat.Proofs.Locality.Steps

/-!
# Texts that are taken whole

Some characters are taken whole if a character that ends texts follows them (`Dialect.Takes`): no
quote in them reaches beyond their end. Then they mean the same in front of anything else that does
not start with a quote (`Takes.scan_append`), which need not end the text. So blanks that follow are
either what ends the text, or ordinary characters of it.

Raw characters at the start of such a text may be left out (`Takes.of_append`).
-/

namespace MessageFormat

namespace Dialect

/-- Characters that are taken whole if they are followed by one that ends texts of this mode. -/
def Takes (d : Dialect) (m : Mode) (taken : List Char) : Prop :=
  ∃ text c rest, d.stops m c = true ∧ d.scan m (taken ++ c :: rest) = (text, c :: rest)

/-- What a text of this mode means. -/
def meaning (d : Dialect) (m : Mode) (text : List Char) : String :=
  String.ofList (d.scan m text).1

variable {d : Dialect} {m : Mode} {c : Char} {taken text rest after : List Char}

theorem withChar_eq_iff
    {reading : List Char × List Char} :
    withChar c reading = (text, rest) ↔ ∃ more, text = c :: more ∧ reading = (more, rest) := by
  obtain ⟨first, left⟩ := reading
  simp only [withChar, Prod.mk.injEq]
  constructor
  · rintro ⟨rfl, rfl⟩
    exact ⟨first, rfl, rfl, rfl⟩
  · rintro ⟨more, rfl, rfl, rfl⟩
    exact ⟨rfl, rfl⟩

/-- A quote in front of what ends a text opens a literal run. -/
theorem opensRun_of_stops
    (hstop : d.stops m c = true) :
    d.opensRun m c = true := by
  simp only [stops, opensRun, Mode.quotesAnything, Bool.or_eq_true, Bool.and_eq_true] at hstop ⊢
  grind

/-- Where reading stops at a character that ends texts, no quote before it reaches any further: what
was read is read in front of everything that does not start with a quote. -/
theorem scanFrom_append
    (hquote : d.stops m d.quote = false) (inRun : Bool) (text : List Char) :
    ∃ window, text = window ++ (d.scanFrom m inRun text).2 ∧
      ∀ c after, (d.scanFrom m inRun text).2.head? = some c → d.stops m c = true →
        after.head? ≠ some d.quote →
        d.scanFrom m inRun (window ++ after) =
          withChars (d.scanFrom m inRun text).1 (d.scanFrom m false after) := by
  fun_induction d.scanFrom m inRun text with
  | case1 | case3 | case9 | case10 => exact ⟨_, (List.append_nil _).symm, by simp⟩
  | case2 | case4 => exact ⟨[], rfl, fun _ _ _ _ _ => rfl⟩
  | case5 c next rest hstop hraw ih =>
      obtain ⟨window, hrest, hread⟩ := ih
      refine ⟨c :: window, congrArg (c :: ·) hrest, ?_⟩
      intro stop after hleft hends hafter
      rw [List.cons_append, scanFrom_raw (by simpa using hstop) hraw,
        hread stop after hleft hends hafter]
      rfl
  | case6 c rest hstop hraw ih =>
      obtain ⟨window, hrest, hread⟩ := ih
      obtain rfl : c = d.quote := by
        simpa using hraw
      refine ⟨d.quote :: d.quote :: window, congrArg (d.quote :: d.quote :: ·) hrest, ?_⟩
      intro stop after hleft hends hafter
      rw [List.cons_append, List.cons_append, scanFrom_pair hquote,
        hread stop after hleft hends hafter]
      rfl
  | case7 c next rest hstop hraw hnext hopens ih =>
      obtain ⟨window, hrest, hread⟩ := ih
      obtain rfl : c = d.quote := by
        simpa using hraw
      refine ⟨d.quote :: next :: window, congrArg (d.quote :: next :: ·) hrest, ?_⟩
      intro stop after hleft hends hafter
      rw [List.cons_append, List.cons_append, scanFrom_open hquote hnext hopens,
        hread stop after hleft hends hafter]
      rfl
  | case8 c next rest hstop hraw hnext hopens ih =>
      obtain ⟨window, hrest, hread⟩ := ih
      obtain rfl : c = d.quote := by
        simpa using hraw
      refine ⟨d.quote :: window, congrArg (d.quote :: ·) hrest, ?_⟩
      intro stop after hleft hends hafter
      rw [List.cons_append, scanFrom_lone hquote ?_, hread stop after hleft hends hafter]
      · rfl
      · cases window with
        | nil =>
            -- What ends a text would be opened by the quote in front of it.
            obtain rfl : next = stop := Option.some.inj ((congrArg List.head? hrest).trans hleft)
            exact absurd (opensRun_of_stops hends) hopens
        | cons first window =>
            obtain rfl : next = first := (List.cons.inj hrest).1
            rintro _ ⟨⟩
            exact ⟨hnext, by simpa using hopens⟩
  | case11 c next rest hraw ih =>
      obtain ⟨window, hrest, hread⟩ := ih
      refine ⟨c :: window, congrArg (c :: ·) hrest, ?_⟩
      intro stop after hleft hends hafter
      rw [List.cons_append, scanFrom_run_raw hraw, hread stop after hleft hends hafter]
      rfl
  | case12 c rest hraw ih =>
      obtain ⟨window, hrest, hread⟩ := ih
      obtain rfl : c = d.quote := by
        simpa using hraw
      refine ⟨d.quote :: d.quote :: window, congrArg (d.quote :: d.quote :: ·) hrest, ?_⟩
      intro stop after hleft hends hafter
      rw [List.cons_append, List.cons_append, scanFrom_run_pair,
        hread stop after hleft hends hafter]
      rfl
  | case13 c next rest hraw hnext ih =>
      obtain ⟨window, hrest, hread⟩ := ih
      obtain rfl : c = d.quote := by
        simpa using hraw
      refine ⟨d.quote :: window, congrArg (d.quote :: ·) hrest, ?_⟩
      intro stop after hleft hends hafter
      rw [List.cons_append, scanFrom_run_close ?_, hread stop after hleft hends hafter]
      cases window with
      | nil => exact hafter
      | cons first window =>
          obtain rfl : next = first := (List.cons.inj hrest).1
          simpa using hnext

/-- A text that is taken whole means the same in front of everything that does not start with a
quote. -/
theorem Takes.scan_append
    (h : d.Takes m taken) (hquote : d.stops m d.quote = false)
    (hafter : after.head? ≠ some d.quote) :
    d.scan m (taken ++ after) = withChars (d.meaning m taken).toList (d.scan m after) := by
  obtain ⟨text, c, rest, hstop, hscan⟩ := h
  obtain ⟨window, htaken, hread⟩ := scanFrom_append hquote false (taken ++ c :: rest)
  rw [scan] at hscan
  rw [hscan] at htaken hread
  obtain rfl : taken = window := List.append_cancel_right htaken
  have hmeans : (d.scan m taken).1 = text := by
    have hend := hread c [] rfl hstop (by simp)
    rw [List.append_nil, scanFrom_nil, withChars_eq, List.append_nil] at hend
    rw [scan, hend]
  rw [meaning, String.toList_ofList, hmeans]
  exact hread c after rfl hstop hafter

/-- Raw characters mean themselves. -/
theorem scan_append_of_raw
    {first : List Char} (hraw : ∀ c ∈ first, d.Raw m c) (rest : List Char) :
    d.scan m (first ++ rest) = withChars first (d.scan m rest) := by
  induction first with
  | nil => rfl
  | cons c first ih =>
      obtain ⟨hquote, hstop⟩ := hraw c List.mem_cons_self
      have hrest := ih fun c hc => hraw c (List.mem_cons_of_mem _ hc)
      rw [scan] at hrest ⊢
      rw [List.cons_append, scanFrom_raw hstop hquote, hrest, withChars_cons, scan]

/-- The first character of a text that is taken whole does not end it. -/
theorem Takes.head
    (h : d.Takes m (c :: taken)) :
    d.stops m c = false := by
  obtain ⟨text, stop, rest, -, hscan⟩ := h
  cases hstop : d.stops m c with
  | false => rfl
  | true =>
      rw [List.cons_append, scan, scanFrom_stop hstop, Prod.mk.injEq] at hscan
      have hlength := congrArg List.length hscan.2
      simp only [List.length_cons, List.length_append] at hlength
      omega

/-- Without characters at its start that are no quotes, a text is still taken whole. -/
theorem Takes.of_append
    {first : List Char} (h : d.Takes m (first ++ taken)) (hfirst : d.quote ∉ first) :
    d.Takes m taken := by
  induction first with
  | nil => exact h
  | cons c first ih =>
      have hc := h.head
      obtain ⟨hne, hfirst⟩ : d.quote ≠ c ∧ d.quote ∉ first := by
        simpa using hfirst
      refine ih ?_ hfirst
      obtain ⟨text, stop, rest, hstop, hscan⟩ := h
      rw [List.cons_append, List.cons_append, scan, scanFrom_raw hc hne.symm,
        withChar_eq_iff] at hscan
      obtain ⟨more, -, hscan⟩ := hscan
      exact ⟨more, stop, rest, hstop, hscan⟩

end Dialect

end MessageFormat
