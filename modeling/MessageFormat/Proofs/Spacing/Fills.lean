import MessageFormat.Proofs.Spacing.Taking

/-!
# Texts with gaps

The text of a placeholder is made up of parts: characters that are given, and gaps that any blanks
may fill (`Fills`). A step of reading is uniform if it is taken from all texts that are made up of
the same parts or from none, and leads to texts that are made up of the same parts again
(`Uniform`). Uniform steps make uniform chains.

The steps of the header readers are uniform: blanks are skipped together with a gap, a delimiter is
taken where it is given, and a scanner takes a text that is taken whole.
-/

namespace MessageFormat

/-- A part of a text. -/
inductive Part where
  /-- Characters that are given. -/
  | raw (text : List Char)
  /-- Blanks, of which there may be none unless some are needed. -/
  | gap (needed : Bool)
deriving DecidableEq

/-- A text is made up of parts. -/
inductive Fills : List Part → List Char → Prop
  | nil :
      Fills [] []
  | raw
      {parts : List Part} {rest : List Char} (text : List Char)
      (hrest : Fills parts rest) :
      Fills (.raw text :: parts) (text ++ rest)
  | gap
      {parts : List Part} {rest blanks : List Char} {needed : Bool}
      (hblanks : ∀ c ∈ blanks, isBlank c = true) (hneeded : needed = true → blanks ≠ [])
      (hrest : Fills parts rest) :
      Fills (.gap needed :: parts) (blanks ++ rest)

/-- The blanks in front of a text may be skipped. -/
def Skippable (parts : List Part) : Prop :=
  ∀ text, Fills parts text → Fills parts (skipBlanks text)

/-- A step leads from all texts that are made up of the same parts to texts that are made up of the
same parts again, or from none. -/
def Uniform (parts parts' : List Part) (step : Place → Place → Prop) : Prop :=
  ∀ p q, Fills parts p.rest → step p q →
    Fills parts' q.rest ∧ ∀ p' : Place, Fills parts p'.rest →
      ∃ q' : Place, step p' q' ∧ Fills parts' q'.rest

/-- A text between gaps. -/
def wordParts (text : List Char) (parts : List Part) : List Part :=
  .gap false :: .raw text :: .gap false :: parts

variable {parts parts' parts'' : List Part} {step step' : Place → Place → Prop}
  {text rest : List Char} {needed : Bool} {c : Char}

theorem fills_nil_iff :
    Fills [] text ↔ text = [] := by
  constructor
  · intro h
    cases h
    rfl
  · rintro rfl
    exact .nil

theorem fills_raw_iff
    {given : List Char} :
    Fills (.raw given :: parts) text ↔ ∃ rest, text = given ++ rest ∧ Fills parts rest := by
  constructor
  · intro h
    cases h with
    | raw _ hrest => exact ⟨_, rfl, hrest⟩
  · rintro ⟨rest, rfl, hrest⟩
    exact .raw given hrest

theorem fills_gap_iff :
    Fills (.gap needed :: parts) text
      ↔
    ∃ blanks rest, text = blanks ++ rest ∧ (∀ c ∈ blanks, isBlank c = true) ∧
      (needed = true → blanks ≠ []) ∧ Fills parts rest := by
  constructor
  · intro h
    cases h with
    | gap hblanks hneeded hrest => exact ⟨_, _, rfl, hblanks, hneeded, hrest⟩
  · rintro ⟨blanks, rest, rfl, hblanks, hneeded, hrest⟩
    exact .gap hblanks hneeded hrest

theorem skipBlanks_append_of_blanks
    {blanks : List Char} (hblanks : ∀ c ∈ blanks, isBlank c = true) (rest : List Char) :
    skipBlanks (blanks ++ rest) = skipBlanks rest :=
  List.dropWhile_append_of_pos hblanks

theorem trimBlanksEnd_append_of_blanks
    {blanks : List Char} (hblanks : ∀ c ∈ blanks, isBlank c = true) (text : List Char) :
    trimBlanksEnd (text ++ blanks) = trimBlanksEnd text := by
  have hreverse : ∀ c ∈ blanks.reverse, isBlank c = true := by
    simpa using hblanks
  rw [trimBlanksEnd, List.reverse_append, List.dropWhile_append_of_pos hreverse, trimBlanksEnd]

/-- A gap need not be filled. -/
theorem Fills.gap_nil
    (h : Fills parts rest) :
    Fills (.gap false :: parts) rest :=
  fills_gap_iff.mpr ⟨[], rest, rfl, nofun, nofun, h⟩

/-- A blank may be put in front of a gap, which need not be filled any more then. -/
theorem Fills.gap_cons
    (hc : isBlank c = true) (h : Fills (.gap false :: parts) rest) :
    Fills (.gap needed :: parts) (c :: rest) := by
  obtain ⟨blanks, after, rfl, hblanks, -, hafter⟩ := fills_gap_iff.mp h
  exact fills_gap_iff.mpr ⟨c :: blanks, after, rfl, List.forall_mem_cons.mpr ⟨hc, hblanks⟩, nofun,
    hafter⟩

namespace Skippable

theorem raw_cons
    (hc : isBlank c = false) (text : List Char) :
    Skippable (.raw (c :: text) :: parts) := by
  intro filled h
  obtain ⟨rest, rfl, hrest⟩ := fills_raw_iff.mp h
  rw [skipBlanks_of_head? (by simpa using hc)]
  exact h

theorem raw_nil
    (h : Skippable parts) :
    Skippable (.raw [] :: parts) := by
  intro filled hfilled
  obtain ⟨rest, htext, hrest⟩ := fills_raw_iff.mp hfilled
  rw [htext]
  exact .raw [] (h rest hrest)

theorem gap
    (h : Skippable parts) :
    Skippable (.gap false :: parts) := by
  intro filled hfilled
  obtain ⟨blanks, rest, rfl, hblanks, -, hrest⟩ := fills_gap_iff.mp hfilled
  rw [skipBlanks_append_of_blanks hblanks]
  exact (h rest hrest).gap_nil

end Skippable

namespace Uniform

theorem seq
    (h : Uniform parts parts' step) (h' : Uniform parts' parts'' step') :
    Uniform parts parts'' (fun a c => ∃ b, step a b ∧ step' b c) := by
  rintro p r hp ⟨q, hpq, hqr⟩
  obtain ⟨hq, hall⟩ := h p q hp hpq
  obtain ⟨hr, hall'⟩ := h' q r hq hqr
  refine ⟨hr, ?_⟩
  intro p' hp'
  obtain ⟨q', hpq', hq'⟩ := hall p' hp'
  obtain ⟨r', hqr', hr'⟩ := hall' q' hq'
  exact ⟨r', ⟨q', hpq', hqr'⟩, hr'⟩

/-- Only the steps from texts that are made up of the parts matter. -/
theorem congr_of_fills
    (h : Uniform parts parts' step)
    (hstep : ∀ a b : Place, Fills parts a.rest → (step a b ↔ step' a b)) :
    Uniform parts parts' step' := by
  intro p q hp hpq
  obtain ⟨hq, hall⟩ := h p q hp ((hstep p q hp).mpr hpq)
  refine ⟨hq, ?_⟩
  intro p' hp'
  obtain ⟨q', hpq', hq'⟩ := hall p' hp'
  exact ⟨q', (hstep p' q' hp').mp hpq', hq'⟩

theorem congr
    (h : Uniform parts parts' step) (hstep : ∀ a b, step a b ↔ step' a b) :
    Uniform parts parts' step' :=
  h.congr_of_fills fun a b _ => hstep a b

/-- Where a gap may be filled, there may be none. -/
theorem of_gap
    (h : Uniform (.gap false :: parts) parts' step) :
    Uniform parts parts' step := by
  intro p q hp hpq
  obtain ⟨hq, hall⟩ := h p q hp.gap_nil hpq
  exact ⟨hq, fun p' hp' => hall p' hp'.gap_nil⟩

/-- A condition that has nothing to do with the text does no harm. -/
theorem and_left
    {condition : Prop} (h : condition → Uniform parts parts' step) :
    Uniform parts parts' (fun a b => condition ∧ step a b) := by
  rintro p q hp ⟨hcondition, hpq⟩
  obtain ⟨hq, hall⟩ := h hcondition p q hp hpq
  refine ⟨hq, ?_⟩
  intro p' hp'
  obtain ⟨q', hpq', hq'⟩ := hall p' hp'
  exact ⟨q', ⟨hcondition, hpq'⟩, hq'⟩

theorem exists_left
    {α : Type} {step : α → Place → Place → Prop} (h : ∀ a, Uniform parts parts' (step a)) :
    Uniform parts parts' (fun p q => ∃ a, step a p q) := by
  rintro p q hp ⟨a, hpq⟩
  obtain ⟨hq, hall⟩ := h a p q hp hpq
  refine ⟨hq, ?_⟩
  intro p' hp'
  obtain ⟨q', hpq', hq'⟩ := hall p' hp'
  exact ⟨q', ⟨a, hpq'⟩, hq'⟩

/-- A step that is decided by a condition on the parts and has one result. -/
theorem intro
    (condition : Prop)
    (h : ∀ p : Place, Fills parts p.rest →
      ∃ q : Place, Fills parts' q.rest ∧ ∀ r, step p r ↔ condition ∧ r = q) :
    Uniform parts parts' step := by
  intro p r hp hpr
  obtain ⟨q, hq, hstep⟩ := h p hp
  obtain ⟨hcondition, rfl⟩ := (hstep r).mp hpr
  refine ⟨hq, ?_⟩
  intro p' hp'
  obtain ⟨q', hq', hstep'⟩ := h p' hp'
  exact ⟨q', (hstep' q').mpr ⟨hcondition, rfl⟩, hq'⟩

end Uniform

theorem uniform_skip
    (h : Skippable parts) :
    Uniform (.gap needed :: parts) parts (fun a b => a.skip = b) := by
  refine .intro True fun p hp => ⟨p.skip, ?_, by simp [eq_comm]⟩
  obtain ⟨blanks, rest, hrest, hblanks, -, hfills⟩ := fills_gap_iff.mp hp
  rw [Place.skip, hrest, skipBlanks_append_of_blanks hblanks]
  exact h rest hfills

theorem uniform_take :
    Uniform (.raw [c] :: parts) parts (fun a b => a.peek = some c ∧ a.advance = b) := by
  refine .intro True fun p hp => ?_
  obtain ⟨rest, hrest, hfills⟩ := fills_raw_iff.mp hp
  refine ⟨p.advance, by simpa [Place.advance, hrest] using hfills, ?_⟩
  simp [Place.peek, hrest, eq_comm]

theorem Fills.peek
    {p : Place} (h : Fills (.raw [c] :: parts) p.rest) :
    p.peek = some c := by
  obtain ⟨rest, hrest, -⟩ := fills_raw_iff.mp h
  simp [Place.peek, hrest]

namespace Dialect

variable {d : Dialect} {m : Mode} {taken : List Char} {word : String} {what : Expectation}
  {p q : Place}

/-- No delimiter is a blank or can stand in a number, and the keyword of an offset holds no
blanks and no delimiters. -/
structure Spaced (d : Dialect) : Prop where
  visible : d.Visible
  numeral : ∀ role, isNumeral (d.char role) = false
  keyword : ∀ c ∈ d.offsetKeyword.toList, isBlank c = false ∧ ∀ role, c ≠ d.char role

/-- What is taken whole, where blanks end texts, has no blanks in front. -/
theorem Takes.skippable
    (h : d.Takes m taken) (hblanks : m.blanks = false) (hparts : Skippable parts) :
    Skippable (.raw taken :: parts) := by
  cases taken with
  | nil => exact .raw_nil hparts
  | cons c taken => exact .raw_cons (isBlank_of_stops hblanks h.head) taken

section Scanning

variable (hd : d.Visible) (htaken : d.Takes m taken) (hblanks : m.blanks = false)
  (hstop : d.stops m c = true)
include hd htaken hblanks hstop

theorem scan_of_fills
    (hp : Fills (.raw taken :: .gap needed :: .raw [c] :: parts) p.rest) :
    ∃ q : Place, Fills (.gap needed :: .raw [c] :: parts) q.rest ∧
      p.scan d m = (d.meaning m taken, q) := by
  obtain ⟨after, hrest, hafter⟩ := fills_raw_iff.mp hp
  refine ⟨⟨after, p.kept⟩, hafter, ?_⟩
  have hends : d.EndsBefore m after := by
    obtain ⟨gap, rest, rfl, hgap, -, hdelimiter⟩ := fills_gap_iff.mp hafter
    cases gap with
    | nil =>
        obtain ⟨rest, rfl, -⟩ := fills_raw_iff.mp hdelimiter
        exact endsBefore_cons.mpr hstop
    | cons c gap => exact endsBefore_cons.mpr (stops_blank hblanks (hgap c List.mem_cons_self))
  have hquote : d.stops m d.quote = false := d.stops_quote m (Or.inr (hd .quote))
  have hscan := htaken.scan_append hquote (hends.head?_ne_quote hquote)
  have hstay : d.scan m after = ([], after) := hends.scanFrom_eq
  rw [hstay, withChars_eq, List.append_nil] at hscan
  simp [Place.scan, hrest, hscan]

theorem uniform_scan :
    Uniform (.raw taken :: .gap needed :: .raw [c] :: parts) (.gap needed :: .raw [c] :: parts)
      (fun a b => a.scan d m = (word, b)) := by
  refine .intro (word = d.meaning m taken) fun p hp => ?_
  obtain ⟨q, hq, hscan⟩ := scan_of_fills hd htaken hblanks hstop hp
  refine ⟨q, hq, ?_⟩
  simp [hscan, eq_comm]

end Scanning

section Words

variable (hd : d.Visible) (htaken : d.Takes .word taken)
  (hc : isBlank c = false) (hstop : d.stops .word c = true)
include hd htaken hc hstop

theorem uniform_readWord :
    Uniform (wordParts taken (.raw [c] :: parts)) (.raw [c] :: parts)
      (fun a b => d.readWord what a = .ok (word, b)) := by
  have hdelimiter : Skippable (.raw [c] :: parts) := .raw_cons hc []
  have hscan : Uniform (.raw taken :: .gap false :: .raw [c] :: parts)
      (.gap false :: .raw [c] :: parts) (fun a b => a.scan d .word = (word, b)) :=
    uniform_scan hd htaken rfl hstop
  have hskip : Uniform (wordParts taken (.raw [c] :: parts))
      (.raw taken :: .gap false :: .raw [c] :: parts) (fun a b => a.skip = b) :=
    uniform_skip (htaken.skippable rfl hdelimiter.gap)
  have hword := hskip.seq (hscan.seq (uniform_skip hdelimiter))
  refine (Uniform.and_left fun (_ : word ≠ "") => hword).congr fun a b => ?_
  simp [readWord_eq_ok_iff]

/-- The word is what the given characters mean. -/
theorem readWord_meaning
    (hp : Fills (wordParts taken (.raw [c] :: parts)) p.rest)
    (h : d.readWord what p = .ok (word, q)) :
    word = d.meaning .word taken ∧ Fills (.raw [c] :: parts) q.rest := by
  obtain ⟨-, r, hscan, -⟩ := readWord_eq_ok_iff.mp h
  have hdelimiter : Skippable (.raw [c] :: parts) := .raw_cons hc []
  obtain ⟨hskip, -⟩ := uniform_skip (htaken.skippable rfl hdelimiter.gap) p p.skip hp rfl
  obtain ⟨r', -, hscan'⟩ := scan_of_fills hd htaken rfl hstop hskip
  exact ⟨congrArg Prod.fst (hscan.symm.trans hscan'),
    (uniform_readWord hd htaken hc hstop p q hp h).1⟩

end Words

section Heads

variable {idText typeText : List Char} {head : Head} {name type : String}
  (hd : d.Visible) (hid : d.Takes .word idText)
include hd hid

section Bare

/-- Where the closer follows the id, the placeholder ends. -/
theorem uniform_readHead_bare
    (name : String) :
    Uniform (wordParts idText (.raw [d.closer] :: parts)) parts
      (fun a b => d.readHead a = .ok (.bare name, b)) := by
  have hword : Uniform (wordParts idText (.raw [d.closer] :: parts)) (.raw [d.closer] :: parts)
      (fun a b => d.readWord .placeholderId a = .ok (name, b)) :=
    uniform_readWord hd hid (hd .closer) (d.stops_closer .word)
  exact (hword.seq uniform_take).congr fun a b => readHead_bare_iff.symm

theorem readHead_of_closer
    (hp : Fills (wordParts idText (.raw [d.closer] :: parts)) p.rest)
    (h : d.readHead p = .ok (head, q)) :
    ∃ name, head = .bare name := by
  have hpeek {name : String} {r : Place} (hword : d.readWord .placeholderId p = .ok (name, r))
      (hseparator : r.peek = some d.separator) : False := by
    have hcloser :=
      (readWord_meaning hd hid (hd .closer) (d.stops_closer .word) hp hword).2.peek
    have hne : d.closer ≠ d.separator := d.char_ne .closer .separator
    exact hne (Option.some.inj (hcloser.symm.trans hseparator))
  cases head with
  | bare name => exact ⟨name, rfl⟩
  | typed name type =>
      obtain ⟨r, -, hword, hseparator, -⟩ := readHead_typed_iff.mp h
      exact (hpeek hword hseparator).elim
  | formatted name type =>
      obtain ⟨r, -, hword, hseparator, -⟩ := readHead_formatted_iff.mp h
      exact (hpeek hword hseparator).elim

end Bare

variable (htype : d.Takes .word typeText)
include htype

section Typed

variable (hc : isBlank c = false) (hstop : d.stops .word c = true)
include hc hstop

/-- Behind a separator, the id is followed by a type. -/
theorem uniform_readWords
    (parts : List Part) (name type : String) :
    Uniform (wordParts idText (.raw [d.separator] :: wordParts typeText (.raw [c] :: parts)))
      (.raw [c] :: parts)
      (fun a e => ∃ b, d.readWord .placeholderId a = .ok (name, b) ∧
        ∃ b', (b.peek = some d.separator ∧ b.advance = b') ∧
          d.readWord .type b' = .ok (type, e)) := by
  have hname : Uniform
      (wordParts idText (.raw [d.separator] :: wordParts typeText (.raw [c] :: parts)))
      (.raw [d.separator] :: wordParts typeText (.raw [c] :: parts))
      (fun a b => d.readWord .placeholderId a = .ok (name, b)) :=
    uniform_readWord hd hid (hd .separator) d.stops_separator
  exact hname.seq (uniform_take.seq (uniform_readWord hd htype hc hstop))

theorem readWords_meaning
    {r s : Place}
    (hp : Fills (wordParts idText (.raw [d.separator] :: wordParts typeText (.raw [c] :: parts)))
      p.rest)
    (hname : d.readWord .placeholderId p = .ok (name, r))
    (htypeWord : d.readWord .type r.advance = .ok (type, s)) :
    name = d.meaning .word idText ∧ type = d.meaning .word typeText ∧ r.peek = some d.separator ∧
      s.peek = some c := by
  obtain ⟨hnameMeaning, hr⟩ := readWord_meaning hd hid (hd .separator) d.stops_separator hp hname
  have hadvance := (uniform_take r r.advance hr ⟨hr.peek, rfl⟩).1
  obtain ⟨htypeMeaning, hs⟩ := readWord_meaning hd htype hc hstop hadvance htypeWord
  exact ⟨hnameMeaning, htypeMeaning, hr.peek, hs.peek⟩

end Typed

/-- Where the closer follows the type, the placeholder ends. -/
theorem uniform_readHead_typed
    (name type : String) :
    Uniform (wordParts idText (.raw [d.separator] :: wordParts typeText (.raw [d.closer] :: parts)))
      parts (fun a b => d.readHead a = .ok (.typed name type, b)) := by
  have hwords := (uniform_readWords hd hid htype (hd .closer) (d.stops_closer .word) parts name
    type).seq uniform_take
  refine (Uniform.and_left fun (_ : d.isBranching type = false) => hwords).congr fun a b => ?_
  rw [readHead_typed_iff]
  constructor
  · rintro ⟨hplain, s, ⟨r, hname, _, ⟨hseparator, rfl⟩, htype⟩, hcloser, hb⟩
    exact ⟨r, s, hname, hseparator, htype, hcloser, hplain, hb⟩
  · rintro ⟨r, s, hname, hseparator, htype, hcloser, hplain, hb⟩
    exact ⟨hplain, s, ⟨r, hname, _, ⟨hseparator, rfl⟩, htype⟩, hcloser, hb⟩

theorem readHead_of_separator_closer
    (hp : Fills (wordParts idText (.raw [d.separator] :: wordParts typeText
      (.raw [d.closer] :: parts))) p.rest)
    (h : d.readHead p = .ok (head, q)) :
    ∃ name type, head = .typed name type := by
  have hne : d.closer ≠ d.separator := d.char_ne .closer .separator
  cases head with
  | typed name type => exact ⟨name, type, rfl⟩
  | bare name =>
      obtain ⟨r, hname, hcloser, -⟩ := readHead_bare_iff.mp h
      have hseparator :=
        (readWord_meaning hd hid (hd .separator) d.stops_separator hp hname).2.peek
      exact absurd (Option.some.inj (hcloser.symm.trans hseparator)) hne
  | formatted name type =>
      obtain ⟨r, s, hname, -, htypeWord, hseparator, -⟩ := readHead_formatted_iff.mp h
      obtain ⟨-, -, -, hcloser⟩ := readWords_meaning hd hid htype (hd .closer)
        (d.stops_closer .word) hp hname htypeWord
      exact absurd (Option.some.inj (hcloser.symm.trans hseparator)) hne

/-- Where a separator follows the type, something else follows that. -/
theorem uniform_readHead_formatted
    (hparts : Skippable parts) (name type : String) :
    Uniform (wordParts idText (.raw [d.separator] :: wordParts typeText
      (.raw [d.separator] :: .gap false :: parts))) parts
      (fun a b => d.readHead a = .ok (.formatted name type, b)) := by
  have hskip : Uniform (.gap false :: parts) parts (fun a b => a.skip = b) := uniform_skip hparts
  have hwords := (uniform_readWords hd hid htype (hd .separator) d.stops_separator
    (.gap false :: parts) name type).seq (uniform_take.seq hskip)
  refine hwords.congr fun a b => ?_
  rw [readHead_formatted_iff]
  constructor
  · rintro ⟨s, ⟨r, hname, _, ⟨hseparator, rfl⟩, htype⟩, _, ⟨hseparator', rfl⟩, hb⟩
    exact ⟨r, s, hname, hseparator, htype, hseparator', hb⟩
  · rintro ⟨r, s, hname, hseparator, htype, hseparator', hb⟩
    exact ⟨s, ⟨r, hname, _, ⟨hseparator, rfl⟩, htype⟩, _, ⟨hseparator', rfl⟩, hb⟩

theorem readHead_of_separators
    (hp : Fills (wordParts idText (.raw [d.separator] :: wordParts typeText
      (.raw [d.separator] :: parts))) p.rest)
    (h : d.readHead p = .ok (head, q)) :
    head = .formatted (d.meaning .word idText) (d.meaning .word typeText) := by
  have hne : d.closer ≠ d.separator := d.char_ne .closer .separator
  cases head with
  | formatted name type =>
      obtain ⟨r, s, hname, -, htypeWord, -⟩ := readHead_formatted_iff.mp h
      obtain ⟨rfl, rfl, -⟩ := readWords_meaning hd hid htype (hd .separator) d.stops_separator hp
        hname htypeWord
      rfl
  | bare name =>
      obtain ⟨r, hname, hcloser, -⟩ := readHead_bare_iff.mp h
      have hseparator :=
        (readWord_meaning hd hid (hd .separator) d.stops_separator hp hname).2.peek
      exact absurd (Option.some.inj (hcloser.symm.trans hseparator)) hne
  | typed name type =>
      obtain ⟨r, s, hname, -, htypeWord, hcloser, -⟩ := readHead_typed_iff.mp h
      obtain ⟨-, -, -, hseparator⟩ := readWords_meaning hd hid htype (hd .separator)
        d.stops_separator hp hname htypeWord
      exact absurd (Option.some.inj (hcloser.symm.trans hseparator)) hne

end Heads

section Ends

variable (hd : d.Visible)
include hd

theorem uniform_readSelector
    (htaken : d.Takes .selector taken) (selector : String) :
    Uniform (.raw taken :: .gap false :: .raw [d.opener] :: parts) parts
      (fun a b => d.readSelector a = .ok (selector, b)) := by
  have hopener : Skippable (.raw [d.opener] :: parts) := .raw_cons (hd .opener) []
  have hscan : Uniform (.raw taken :: .gap false :: .raw [d.opener] :: parts)
      (.gap false :: .raw [d.opener] :: parts)
      (fun a b => a.scan d .selector = (selector, b)) :=
    uniform_scan hd htaken rfl (d.stops_opener .selector)
  have hselector := hscan.seq ((uniform_skip hopener).seq uniform_take)
  refine (Uniform.and_left fun (_ : selector ≠ "") => hselector).congr fun a b => ?_
  simp [readSelector_eq_ok_iff]

theorem uniform_readCloser :
    Uniform (.gap false :: .raw [d.closer] :: parts) parts
      (fun a b => d.readCloser a = .ok b) := by
  have hcloser : Skippable (.raw [d.closer] :: parts) := .raw_cons (hd .closer) []
  refine ((uniform_skip hcloser).seq uniform_take).congr fun a b => ?_
  simp [readCloser_eq_ok_iff]

/-- A format ends at the closer, and the blanks in front of the closer are dropped. -/
theorem uniform_readFormat
    (htaken : d.Takes .body taken) (format : String) :
    Uniform (.raw taken :: .gap false :: .raw [d.closer] :: parts) (.raw [d.closer] :: parts)
      (fun a b => d.readFormat a = .ok (format, b)) := by
  refine .intro (format ≠ "" ∧
    String.ofList (trimBlanksEnd (d.meaning .body taken).toList) = format) fun p hp => ?_
  obtain ⟨after, hrest, hafter⟩ := fills_raw_iff.mp hp
  obtain ⟨gap, rest, rfl, hgap, -, hdelimiter⟩ := fills_gap_iff.mp hafter
  have hclosed : d.EndsBefore .body rest := by
    obtain ⟨more, rfl, -⟩ := fills_raw_iff.mp hdelimiter
    exact endsBefore_cons.mpr (d.stops_closer .body)
  have hraw : ∀ c ∈ gap, d.Raw .body c := fun c hc => raw_of_isBlank hd (hgap c hc)
  have hquote : (gap ++ rest).head? ≠ some d.quote := by
    cases gap with
    | nil => exact hclosed.head?_ne_quote (d.stops_quote .body (Or.inl rfl))
    | cons c gap => simpa using (hraw c List.mem_cons_self).1
  have hscan : p.scan d .body =
      (String.ofList ((d.meaning .body taken).toList ++ gap), ⟨rest, p.kept⟩) := by
    have hstay : d.scan .body rest = ([], rest) := hclosed.scanFrom_eq
    rw [Place.scan, hrest, htaken.scan_append (d.stops_quote .body (Or.inl rfl)) hquote,
      scan_append_of_raw hraw, hstay, withChars_eq, withChars_eq, List.append_nil]
  refine ⟨⟨rest, p.kept⟩, hdelimiter, fun r => ?_⟩
  rw [readFormat_eq_ok_iff, hscan]
  constructor
  · rintro ⟨hne, text, heq, htrim⟩
    cases heq
    rw [String.toList_ofList, trimBlanksEnd_append_of_blanks hgap] at htrim
    exact ⟨⟨hne, htrim⟩, rfl⟩
  · rintro ⟨⟨hne, htrim⟩, rfl⟩
    refine ⟨hne, _, rfl, ?_⟩
    rw [String.toList_ofList, trimBlanksEnd_append_of_blanks hgap, htrim]

end Ends

end Dialect

end MessageFormat
