import MessageFormat.Proofs.Spacing.Fills

/-!
# Offset clauses between gaps

Reading an offset clause is a uniform step. Where a clause is given, with gaps around its
number, the number has to end at the second gap: there must be blanks in it if a digit follows
(`uniform_offsetClause_given`). Where none is given, the text that follows may look like one.
Then a part of that text is taken, the same whatever fills the gap behind it
(`uniform_offsetClause_within`).
-/

namespace MessageFormat

variable {parts : List Part} {text after left : List Char} {needed : Bool} {c : Char} {n : Int}

theorem skipBlanks_append_of_ne_nil
    (h : skipBlanks text ≠ []) (after : List Char) :
    skipBlanks (text ++ after) = skipBlanks text ++ after := by
  rw [skipBlanks, List.dropWhile_append, if_neg (by simpa [skipBlanks] using h), ← skipBlanks]

theorem skipBlanks_append_of_eq_nil
    (h : skipBlanks text = []) (after : List Char) :
    skipBlanks (text ++ after) = skipBlanks after := by
  rw [skipBlanks, List.dropWhile_append, if_pos (by simpa [skipBlanks] using h), ← skipBlanks]

/-- A keyword is looked for in the text only, if what follows starts with no character of it. -/
theorem prefix_append_iff
    {keyword : List Char} (hafter : ∀ c, after.head? = some c → c ∉ keyword) :
    keyword <+: text ++ after ↔ keyword <+: text := by
  constructor
  · intro h
    rcases List.prefix_or_prefix_of_prefix h (List.prefix_append text after) with hle | hge
    · exact hle
    · obtain ⟨more, rfl⟩ := hge
      have hmore : more <+: after := (List.prefix_append_right_inj text).mp h
      cases more with
      | nil => simp
      | cons c more =>
          obtain ⟨rest, rfl⟩ := hmore
          exact absurd (by simp) (hafter c rfl)
  · intro h
    exact h.trans (List.prefix_append text after)

/-- A numeral is read as it is in front of what does not start with a digit. -/
theorem Numeral.read_append
    (hne : text ≠ []) (hafter : after.head?.any Char.isDigit = false) :
    Numeral.read (text ++ after) = ((Numeral.read text).1, (Numeral.read text).2 ++ after) := by
  have hstop : after.takeWhile Char.isDigit = [] ∧ after.dropWhile Char.isDigit = after :=
    @span_run Char.isDigit [] after rfl hafter
  have hsplit (text : List Char) :
      (text ++ after).takeWhile Char.isDigit = text.takeWhile Char.isDigit ∧
        (text ++ after).dropWhile Char.isDigit = text.dropWhile Char.isDigit ++ after := by
    induction text with
    | nil => exact hstop
    | cons c text ih => cases hc : c.isDigit <;> simp [hc, ih]
  cases text with
  | nil => exact absurd rfl hne
  | cons c text =>
      by_cases hminus : c = '-'
      · subst hminus
        simp [Numeral.read, hsplit text]
      · by_cases hplus : c = '+'
        · subst hplus
          simp [Numeral.read, hsplit text]
        · obtain ⟨htake, hdrop⟩ := hsplit (c :: text)
          rw [List.cons_append] at htake hdrop ⊢
          rw [read_unsigned hminus hplus, read_unsigned hminus hplus, htake, hdrop]

/-- A number as it is written: an optional sign, and digits. -/
def IsNumber (text : List Char) : Prop :=
  ∃ sign digits, text = sign ++ digits ∧ (sign = [] ∨ sign = ['-'] ∨ sign = ['+']) ∧
    digits ≠ [] ∧ ∀ c ∈ digits, c.isDigit = true

theorem isDigit_of_isBlank
    (hc : isBlank c = true) :
    c.isDigit = false := by
  cases hdigit : c.isDigit with
  | false => rfl
  | true => simp [isBlank_of_isDigit hdigit] at hc

theorem isDigit_of_isNumeral
    (hc : isNumeral c = false) :
    c.isDigit = false := by
  simp only [isNumeral, Bool.or_eq_false_iff] at hc
  exact hc.1.1

/-- A number does not start with a blank, and is read to its end. -/
theorem IsNumber.read
    (h : IsNumber text) :
    text.head?.any isBlank = false ∧ text ≠ [] ∧ (Numeral.read text).2 = [] := by
  obtain ⟨sign, digits, rfl, hsign, hne, hdigits⟩ := h
  have hend : digits.dropWhile Char.isDigit = [] := List.dropWhile_eq_nil_iff.mpr hdigits
  rcases hsign with rfl | rfl | rfl
  · cases digits with
    | nil => exact absurd rfl hne
    | cons c digits =>
        have hc : c.isDigit = true := hdigits c List.mem_cons_self
        refine ⟨by simpa using isBlank_of_isDigit hc, by simp, ?_⟩
        rw [List.nil_append, Dialect.read_of_isDigit hc, hend]
  · exact ⟨rfl, by simp, by simpa [Numeral.read] using hend⟩
  · exact ⟨rfl, by simp, by simpa [Numeral.read] using hend⟩

theorem IsNumber.skippable
    (h : IsNumber text) :
    Skippable (.raw text :: parts) := by
  obtain ⟨hvisible, hne, -⟩ := h.read
  cases text with
  | nil => exact absurd rfl hne
  | cons c text => exact .raw_cons (by simpa using hvisible) text

namespace Dialect

variable {d : Dialect}

/-- A number is read as it is in front of what does not start with a digit, and is not read where
there are only blanks in front of what does not start like a number. -/
theorem readNumber_append_iff
    (hdigit : after.head?.any Char.isDigit = false)
    (hnumeral : skipBlanks text = [] → (skipBlanks after).head?.any isNumeral = false) :
    readNumber (text ++ after) = .offset n left
      ↔
    ∃ more, readNumber text = .offset n more ∧ left = more ++ after := by
  by_cases hblank : skipBlanks text = []
  · constructor
    · intro h
      obtain ⟨first, hne, hfirst, hskip⟩ := readNumber_eq_offset h
      rw [skipBlanks_append_of_eq_nil hblank] at hskip
      cases first with
      | nil => exact absurd rfl hne
      | cons c first =>
          have hc := hnumeral hblank
          simp [hskip, hfirst c List.mem_cons_self] at hc
    · rintro ⟨more, h, -⟩
      obtain ⟨first, hne, -, hskip⟩ := readNumber_eq_offset h
      rw [hblank] at hskip
      exact absurd (List.append_eq_nil_iff.mp hskip.symm).1 hne
  · simp only [readNumber_offset_iff, skipBlanks_append_of_ne_nil hblank,
      Numeral.read_append hblank hdigit]
    constructor
    · rintro ⟨numeral, hread, hnumber⟩
      obtain ⟨rfl, rfl⟩ := Prod.mk.inj hread
      exact ⟨_, ⟨_, rfl, hnumber⟩, rfl⟩
    · rintro ⟨more, ⟨numeral, hread, hnumber⟩, rfl⟩
      exact ⟨numeral, by rw [hread], hnumber⟩

/-- What may follow an offset clause: it does not go on with the keyword or with a number. -/
structure Follows (d : Dialect) (after : List Char) : Prop where
  keyword : ∀ c, after.head? = some c → c ∉ d.offsetKeyword.toList
  digit : after.head?.any Char.isDigit = false
  numeral : (skipBlanks after).head?.any isNumeral = false

/-- An offset clause is read as it is in front of what does not go on with it. -/
theorem readOffset_append_iff
    (hafter : d.Follows after) :
    d.readOffset (text ++ after) = .offset n left
      ↔
    ∃ more, d.readOffset text = .offset n more ∧ left = more ++ after := by
  simp only [readOffset_offset_iff]
  constructor
  · rintro ⟨rest, htext, hnumber⟩
    have hprefix : d.offsetKeyword.toList <+: text :=
      (prefix_append_iff hafter.keyword).mp ⟨rest, htext.symm⟩
    obtain ⟨within, rfl⟩ := hprefix
    rw [List.append_assoc, List.append_cancel_left_eq] at htext
    subst htext
    obtain ⟨more, hmore, rfl⟩ :=
      (readNumber_append_iff hafter.digit fun _ => hafter.numeral).mp hnumber
    exact ⟨more, ⟨within, rfl, hmore⟩, rfl⟩
  · rintro ⟨more, ⟨within, rfl, hnumber⟩, rfl⟩
    refine ⟨within ++ after, by rw [List.append_assoc], ?_⟩
    exact (readNumber_append_iff hafter.digit fun _ => hafter.numeral).mpr ⟨more, hnumber, rfl⟩

theorem readOffsetClause_append_iff
    {p q : Place} {type : String} (hrest : p.rest = text ++ after) (hafter : d.Follows after) :
    d.readOffsetClause type p = .ok (some n, q)
      ↔
    d.isNumeric type = true ∧
      ∃ left, d.readOffset text = .offset n left ∧ Place.skip ⟨left ++ after, p.kept⟩ = q := by
  rw [readOffsetClause_some_iff, hrest]
  constructor
  · rintro ⟨hnumeric, _, hleft, rfl⟩
    obtain ⟨left, hoffset, rfl⟩ := (readOffset_append_iff hafter).mp hleft
    exact ⟨hnumeric, left, hoffset, rfl⟩
  · rintro ⟨hnumeric, left, hoffset, rfl⟩
    exact ⟨hnumeric, _, (readOffset_append_iff hafter).mpr ⟨left, hoffset, rfl⟩, rfl⟩

/-- An offset clause is made up of its keyword, its number, and the blanks around the number. -/
theorem exists_of_readOffset
    {d : Dialect} (hd : d.Spaced) (h : d.readOffset text = .offset n left) :
    ∃ first, text = first ++ skipBlanks left ∧ d.quote ∉ first := by
  obtain ⟨rest, rfl, hnumber⟩ := readOffset_offset_iff.mp h
  obtain ⟨number, -, hnumeral, hskip⟩ := readNumber_eq_offset hnumber
  refine ⟨d.offsetKeyword.toList ++ (rest.takeWhile isBlank ++ (number ++ left.takeWhile isBlank)),
    ?_, ?_⟩
  · have hrest : rest.takeWhile isBlank ++ skipBlanks rest = rest :=
      List.takeWhile_append_dropWhile
    have hleft : left.takeWhile isBlank ++ skipBlanks left = left :=
      List.takeWhile_append_dropWhile
    rw [List.append_assoc, List.append_assoc, List.append_assoc, hleft, ← hskip, hrest]
  · have hblank (text : List Char) : d.quote ∉ text.takeWhile isBlank := by
      intro hmem
      have hquote := List.all_eq_true.mp List.all_takeWhile _ hmem
      simp [show isBlank d.quote = false from hd.visible .quote] at hquote
    have hquote : d.quote ∉ number := by
      intro hmem
      have hnot : isNumeral d.quote = false := hd.numeral .quote
      exact absurd (hnumeral _ hmem) (by simp [hnot])
    have hkeyword : d.quote ∉ d.offsetKeyword.toList :=
      fun hmem => (hd.keyword _ hmem).2 .quote rfl
    simp [hblank, hquote, hkeyword]

/-- A delimiter behind a gap does not go on with an offset clause. -/
theorem follows_of_fills
    (hd : d.Spaced) (role : Role)
    (h : Fills (.gap needed :: .raw [d.char role] :: parts) after) :
    d.Follows after := by
  obtain ⟨gap, rest, rfl, hgap, -, hrest⟩ := fills_gap_iff.mp h
  obtain ⟨more, rfl, -⟩ := fills_raw_iff.mp hrest
  have hskip : skipBlanks (gap ++ ([d.char role] ++ more)) = d.char role :: more := by
    rw [skipBlanks_append_of_blanks hgap]
    exact skipBlanks_of_head? (by simpa using hd.visible role)
  have hnumeral : (skipBlanks (gap ++ ([d.char role] ++ more))).head?.any isNumeral = false := by
    rw [hskip]
    simpa using hd.numeral role
  cases gap with
  | nil =>
      refine ⟨?_, by simpa using isDigit_of_isNumeral (hd.numeral role), hnumeral⟩
      rintro c hc hmem
      obtain rfl : d.char role = c := by simpa using hc
      exact (hd.keyword _ hmem).2 role rfl
  | cons b gap =>
      have hb : isBlank b = true := hgap b List.mem_cons_self
      refine ⟨?_, by simpa using isDigit_of_isBlank hb, hnumeral⟩
      rintro c hc hmem
      obtain rfl : b = c := by simpa using hc
      simp [(hd.keyword _ hmem).1] at hb

/-- Blanks are skipped behind a text, and the gap that follows it with them if the text is blank. -/
theorem fills_skipBlanks
    {role : Role} (hd : d.Visible) (text : List Char)
    (h : Fills (.gap false :: .raw [d.char role] :: parts) after) :
    Fills (.raw (skipBlanks text) :: .gap false :: .raw [d.char role] :: parts)
      (skipBlanks (text ++ after)) := by
  by_cases hblank : skipBlanks text = []
  · have hdelimiter : Skippable (.raw [d.char role] :: parts) := .raw_cons (hd role) []
    rw [skipBlanks_append_of_eq_nil hblank, hblank]
    exact .raw [] (hdelimiter.gap after h)
  · rw [skipBlanks_append_of_ne_nil hblank]
    exact .raw _ h

/-- A number is read to its end in front of what does not start with a digit. -/
theorem readNumber_blanks_append_iff
    {blanks number : List Char} (hnumber : IsNumber number)
    (hblanks : ∀ c ∈ blanks, isBlank c = true) (hafter : after.head?.any Char.isDigit = false) :
    readNumber (blanks ++ (number ++ after)) = .offset n left
      ↔
    readNumber number = .offset n [] ∧ left = after := by
  obtain ⟨hvisible, hne, hend⟩ := hnumber.read
  have hskip : skipBlanks number = number := skipBlanks_of_head? hvisible
  have hstart : skipBlanks (blanks ++ (number ++ after)) = number ++ after := by
    rw [skipBlanks_append_of_blanks hblanks, skipBlanks_append_of_ne_nil (hskip.symm ▸ hne), hskip]
  have hread : Numeral.read (number ++ after) = ((Numeral.read number).1, after) := by
    rw [Numeral.read_append hne hafter, hend, List.nil_append]
  have hwhole : Numeral.read number = ((Numeral.read number).1, []) := Prod.ext rfl hend
  simp only [readNumber_offset_iff, hstart, hskip, hread]
  rw [hwhole]
  constructor
  · rintro ⟨numeral, heq, h⟩
    cases heq
    exact ⟨⟨_, rfl, h⟩, rfl⟩
  · rintro ⟨⟨numeral, heq, h⟩, rfl⟩
    cases heq
    exact ⟨_, rfl, h⟩

/-- An offset clause is read to the end of its number, if no digit follows it. -/
theorem uniform_offsetClause_given
    {number : List Char} (hnumber : IsNumber number) (hparts : Skippable parts)
    (hdigit : needed = false → ∀ text, Fills parts text → text.head?.any Char.isDigit = false)
    {type : String} (hnumeric : d.isNumeric type = true) (offset : Option Int) :
    Uniform (.raw d.offsetKeyword.toList :: .gap false :: .raw number :: .gap needed :: parts) parts
      (fun a b => d.readOffsetClause type a = .ok (offset, b)) := by
  cases offset with
  | none =>
      intro p q hp h
      obtain ⟨rest, hrest, -⟩ := fills_raw_iff.mp hp
      obtain ⟨habsent, -⟩ := readOffsetClause_none_iff.mp h
      exact absurd ⟨rest, hrest.symm⟩ (habsent hnumeric)
  | some n =>
      refine .intro (readNumber number = .offset n []) fun p hp => ?_
      obtain ⟨rest, hrest, hclause⟩ := fills_raw_iff.mp hp
      obtain ⟨blanks, _, rfl, hblanks, -, hclause⟩ := fills_gap_iff.mp hclause
      obtain ⟨after, rfl, hafter⟩ := fills_raw_iff.mp hclause
      obtain ⟨gap, text, rfl, hgap, hneeded, htext⟩ := fills_gap_iff.mp hafter
      have hend : (gap ++ text).head?.any Char.isDigit = false := by
        cases gap with
        | nil => exact hdigit (by simpa using hneeded) text htext
        | cons c gap => simpa using isDigit_of_isBlank (hgap c List.mem_cons_self)
      refine ⟨Place.skip ⟨gap ++ text, p.kept⟩, ?_, fun r => ?_⟩
      · rw [Place.skip, skipBlanks_append_of_blanks hgap]
        exact hparts text htext
      · rw [readOffsetClause_some_iff, hrest]
        simp only [readOffset_offset_iff, List.append_cancel_left_eq]
        constructor
        · rintro ⟨-, left, ⟨_, rfl, hread⟩, rfl⟩
          obtain ⟨hvalue, rfl⟩ := (readNumber_blanks_append_iff hnumber hblanks hend).mp hread
          exact ⟨hvalue, rfl⟩
        · rintro ⟨hvalue, rfl⟩
          exact ⟨hnumeric, _, ⟨_, rfl,
            (readNumber_blanks_append_iff hnumber hblanks hend).mpr ⟨hvalue, rfl⟩⟩, rfl⟩

/-- At a delimiter there is no offset clause. -/
theorem uniform_offsetClause_absent
    (hd : d.Spaced) (role : Role) (type : String) (offset : Option Int) :
    Uniform (.raw [d.char role] :: parts) (.raw [d.char role] :: parts)
      (fun a b => d.readOffsetClause type a = .ok (offset, b)) := by
  cases offset with
  | none =>
      refine .intro (d.isNumeric type = true → ¬ d.offsetKeyword.toList <+: []) fun p hp =>
        ⟨p, hp, fun r => ?_⟩
      have hprefix : d.offsetKeyword.toList <+: [] ++ p.rest ↔ d.offsetKeyword.toList <+: [] :=
        prefix_append_iff (follows_of_fills hd role hp.gap_nil).keyword
      rw [List.nil_append] at hprefix
      rw [readOffsetClause_none_iff, hprefix, @eq_comm _ p r]
  | some n =>
      refine .intro False fun p hp => ⟨p, hp, fun r => ?_⟩
      rw [readOffsetClause_append_iff p.rest.nil_append.symm (follows_of_fills hd role hp.gap_nil)]
      refine iff_of_false ?_ (fun h => h.1)
      rintro ⟨-, left, hnothing, -⟩
      obtain ⟨rest, hrest, hnumber⟩ := readOffset_offset_iff.mp hnothing
      obtain ⟨-, rfl⟩ := List.append_eq_nil_iff.mp hrest.symm
      cases hnumber

/-- Where no offset clause is given, the text that follows may look like one. It does so whatever
fills the gap behind it, and then it is left without what looks like one. -/
theorem uniform_offsetClause_within
    (hd : d.Spaced) (role : Role) (text : List Char) (type : String) (offset : Option Int) :
    ∃ first within, text = first ++ within ∧ d.quote ∉ first ∧
      Uniform (.raw text :: .gap false :: .raw [d.char role] :: parts)
        (.raw within :: .gap false :: .raw [d.char role] :: parts)
        (fun a b => d.readOffsetClause type a = .ok (offset, b)) := by
  cases offset with
  | none =>
      refine ⟨[], text, rfl, by simp, .intro
        (d.isNumeric type = true → ¬ d.offsetKeyword.toList <+: text) fun p hp => ⟨p, hp, ?_⟩⟩
      obtain ⟨after, hrest, hafter⟩ := fills_raw_iff.mp hp
      intro r
      rw [readOffsetClause_none_iff, hrest,
        prefix_append_iff (follows_of_fills hd role hafter).keyword, @eq_comm _ p r]
  | some n =>
      by_cases hlooks : d.isNumeric type = true ∧ ∃ left, d.readOffset text = .offset n left
      · obtain ⟨hnumeric, left, hoffset⟩ := hlooks
        obtain ⟨first, hfirst, hquote⟩ := exists_of_readOffset hd hoffset
        refine ⟨first, skipBlanks left, hfirst, hquote, .intro True fun p hp => ?_⟩
        obtain ⟨after, hrest, hafter⟩ := fills_raw_iff.mp hp
        refine ⟨Place.skip ⟨left ++ after, p.kept⟩,
          fills_skipBlanks hd.visible left hafter, fun r => ?_⟩
        rw [readOffsetClause_append_iff hrest (follows_of_fills hd role hafter)]
        constructor
        · rintro ⟨-, left', hoffset', rfl⟩
          cases hoffset.symm.trans hoffset'
          exact ⟨trivial, rfl⟩
        · rintro ⟨-, rfl⟩
          exact ⟨hnumeric, left, hoffset, rfl⟩
      · refine ⟨[], text, rfl, by simp, .intro False fun p hp => ⟨p, hp, fun r => ?_⟩⟩
        obtain ⟨after, hrest, hafter⟩ := fills_raw_iff.mp hp
        rw [readOffsetClause_append_iff hrest (follows_of_fills hd role hafter)]
        constructor
        · rintro ⟨hnumeric, left, hoffset, -⟩
          exact absurd ⟨hnumeric, left, hoffset⟩ hlooks
        · rintro ⟨hfalse, -⟩
          exact hfalse.elim

end Dialect

end MessageFormat
