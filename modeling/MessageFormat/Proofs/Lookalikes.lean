import MessageFormat.Proofs.RoundTrip

/-!
# Selectors that look like offsets

An offset is recognized by its keyword, and writing a selector does not quote the keyword. Where a
number has no offset and its first selector starts with the keyword, what is read back is an offset
(`readOffsetClause_lookalike`). Messages without such a selector are `Unmistakable`.

This needs little of a dialect (`Ordinary`): that no character of the keyword or of a number would
be quoted in a selector, and that numbers have sub-messages.
-/

namespace MessageFormat

/-- Whether a character may stand in a number. -/
def isNumeral (c : Char) : Bool :=
  c.isDigit || c == '-' || c == '+'

namespace Quoted

/-- Characters that are neither marks nor quotes are written as they are. -/
theorem spell_append_raw
    {quote : Char} {isMark : Char → Bool} {first : List Char}
    (hraw : ∀ c ∈ first, c ≠ quote ∧ isMark c = false) (text : List Char) :
    spell quote isMark (first ++ text) = first ++ spell quote isMark text := by
  induction first with
  | nil =>
      rfl
  | cons c first ih =>
      obtain ⟨hquote, hmark⟩ := hraw c List.mem_cons_self
      rw [List.cons_append, spell_cons_raw _ hquote hmark,
        ih (fun c hc => hraw c (List.mem_cons_of_mem _ hc)), List.cons_append]

/-- What is written starts with such characters only if the text does. -/
theorem eq_append_of_spell
    {quote : Char} {isMark : Char → Bool} {first text after rest : List Char}
    (hraw : ∀ c ∈ first, c ≠ quote ∧ isMark c = false)
    (hafter : ∀ c, after.head? = some c → isMark c = true)
    (h : spell quote isMark text ++ after = first ++ rest) :
    ∃ last, text = first ++ last ∧ rest = spell quote isMark last ++ after := by
  induction first generalizing text with
  | nil =>
      exact ⟨text, rfl, h.symm⟩
  | cons c first ih =>
      obtain ⟨hquote, hmark⟩ := hraw c List.mem_cons_self
      cases text with
      | nil =>
          rw [spell_nil, List.nil_append, List.cons_append] at h
          have hstop := hafter c (by rw [h]; rfl)
          simp [hmark] at hstop
      | cons c' text =>
          have hhead := congrArg List.head? h
          rw [List.head?_append, spell_cons_head?] at hhead
          simp only [Option.some_or, List.cons_append, List.head?_cons, Option.some.injEq] at hhead
          split at hhead
          · exact absurd hhead.symm hquote
          · subst hhead
            rw [spell_cons_raw _ hquote hmark, List.cons_append, List.cons_append] at h
            obtain ⟨last, rfl, hrest⟩ :=
              ih (fun c hc => hraw c (List.mem_cons_of_mem _ hc)) (List.cons.inj h).2
            exact ⟨last, rfl, hrest⟩

end Quoted

namespace Dialect

/-- A character stands for itself in a text of this mode, without quotes around it. -/
def Raw (d : Dialect) (m : Mode) (c : Char) : Prop :=
  c ≠ d.quote ∧ d.stops m c = false

instance (d : Dialect) (m : Mode) (c : Char) : Decidable (d.Raw m c) :=
  inferInstanceAs (Decidable (_ ∧ _))

/-- Blanks stand for themselves in a body. -/
theorem raw_of_isBlank
    {d : Dialect} (hvisible : d.Visible) {c : Char} (hc : isBlank c = true) :
    d.Raw .body c := by
  constructor
  · rintro rfl
    exact absurd hc (by simp [show isBlank d.quote = false from hvisible .quote])
  · cases hstop : d.stops .body c with
    | false => rfl
    | true =>
        have hmark : d.isMark .body c = true := by
          simpa [stops, Mode.body] using hstop
        simp [isBlank_of_isMark hvisible hmark] at hc

/-- Delimiters keep apart from blanks, from numbers and from the offset keyword, and numeric types
take sub-messages. -/
structure Ordinary (d : Dialect) : Prop where
  visible : d.Visible
  keyword : ∀ c ∈ d.offsetKeyword.toList, d.Raw .word c
  numeral : ∀ role ∈ Role.all, isNumeral (d.char role) = false
  branching : ∀ type ∈ d.numericTypes, d.isBranching type = true

theorem standard_ordinary :
    standard.Ordinary := by
  have hkeyword : (standard.offsetKeyword.toList.all fun c => decide (standard.Raw .word c)) =
      true := by
    decide
  constructor
  · decide
  · intro c hc
    exact of_decide_eq_true (List.all_eq_true.mp hkeyword c hc)
  · decide
  · decide

/-- A spelled text in front of which raw characters stand. -/
theorem spellText_append
    {d : Dialect} {m : Mode} {first : List Char} (hraw : ∀ c ∈ first, d.Raw m c)
    {s last : String} (hs : s.toList = first ++ last.toList) (after : List Char) :
    d.spellText m s after = first ++ d.spellText m last after := by
  rw [spellText, hs, Quoted.spell_append_raw hraw, List.append_assoc]
  rfl

theorem exists_of_spellText
    {d : Dialect} {m : Mode} {first after rest : List Char} {s : String}
    (hraw : ∀ c ∈ first, d.Raw m c) (hafter : d.EndsBefore m after)
    (h : d.spellText m s after = first ++ rest) :
    ∃ last : String, s.toList = first ++ last.toList ∧ rest = d.spellText m last after := by
  obtain ⟨last, htext, hrest⟩ := Quoted.eq_append_of_spell hraw hafter h
  refine ⟨String.ofList last, ?_, ?_⟩
  · rw [String.toList_ofList, htext]
  · rw [spellText, String.toList_ofList, hrest]

/-- The spelling of a text starts with raw characters exactly if the text does. -/
theorem prefix_spellText_iff
    {d : Dialect} {m : Mode} {first after : List Char} {s : String}
    (hraw : ∀ c ∈ first, d.Raw m c) (hafter : d.EndsBefore m after) :
    first <+: d.spellText m s after ↔ first <+: s.toList := by
  constructor
  · rintro ⟨rest, hrest⟩
    obtain ⟨last, hlast, _⟩ := exists_of_spellText hraw hafter hrest.symm
    exact ⟨last.toList, hlast.symm⟩
  · rintro ⟨last, hlast⟩
    have hs : s.toList = first ++ (String.ofList last).toList := by
      simpa using hlast.symm
    rw [spellText_append hraw hs]
    exact List.prefix_append _ _

namespace Ordinary

variable {d : Dialect} (h : d.Ordinary)
include h

theorem isBranching
    {type : String} (hnumeric : d.isNumeric type = true) :
    d.isBranching type = true :=
  h.branching type (by simpa [isNumeric] using hnumeric)

theorem ne_numeral
    {c : Char} (hc : isNumeral c = true) (role : Role) :
    c ≠ d.char role := by
  rintro rfl
  simp [h.numeral role role.mem_all] at hc

theorem raw_numeral
    {c : Char} (hc : isNumeral c = true) :
    d.Raw .word c := by
  have hblank : isBlank c = false := by
    simp only [isNumeral, Bool.or_eq_true, beq_iff_eq] at hc
    rcases hc with (hdigit | rfl) | rfl
    · exact isBlank_of_isDigit hdigit
    · decide
    · decide
  have hopener : c ≠ d.opener := h.ne_numeral hc .opener
  have hcloser : c ≠ d.closer := h.ne_numeral hc .closer
  have htagOpener : c ≠ d.tagOpener := h.ne_numeral hc .tagOpener
  have hseparator : c ≠ d.separator := h.ne_numeral hc .separator
  refine ⟨h.ne_numeral hc .quote, ?_⟩
  simp [stops, isMark, Mode.word, hopener, hcloser, htagOpener, hseparator, hblank]

theorem startsInk_keyword :
    StartsInk d.offsetKeyword := by
  unfold StartsInk
  cases hkeyword : d.offsetKeyword.toList with
  | nil =>
      rfl
  | cons c rest =>
      have hc := (h.keyword c (by simp [hkeyword])).2
      simpa using isBlank_of_stops (m := .word) rfl hc

end Ordinary

/-- What is read as a number is its sign and its digits, of which there is one at least. -/
theorem readNumber_eq_offset
    {rest after : List Char} {n : Int}
    (h : readNumber rest = .offset n after) :
    ∃ first : List Char,
      first ≠ [] ∧ (∀ c ∈ first, isNumeral c = true) ∧ skipBlanks rest = first ++ after := by
  obtain ⟨cut⟩ := NumberCut.nonempty_numberCut rest
  rw [cut.readNumber_eq] at h
  split at h
  · cases h
  · next hdigits =>
      split at h
      · cases h
      · cases h
        refine ⟨cut.sign ++ cut.digits, ?_, ?_, ?_⟩
        · intro hnil
          exact hdigits (List.append_eq_nil_iff.mp hnil).2
        · intro c hc
          rcases List.mem_append.mp hc with hc | hc
          · have hsigns : ([[], ['-'], ['+']].all fun sign => sign.all isNumeral) = true := by
              decide
            exact List.all_eq_true.mp (List.all_eq_true.mp hsigns cut.sign cut.sign_mem) c hc
          · simp [isNumeral, List.all_eq_true.mp cut.digits_run c hc]
        · rw [cut.skipBlanks_eq, List.append_assoc]

theorem readNumber_ne_absent
    (rest : List Char) :
    readNumber rest ≠ .absent := by
  obtain ⟨cut⟩ := NumberCut.nonempty_numberCut rest
  rw [cut.readNumber_eq]
  split
  · nofun
  · split <;> nofun

/-- What is read as a number at the start of a spelled selector is a part of the selector. -/
theorem readNumber_spellText
    {d : Dialect} (h : d.Ordinary) {s : String} {rest after : List Char} {n : Int}
    (hnumber : readNumber (d.spellText .word s (' ' :: d.opener :: rest)) = .offset n after) :
    ∃ last, after = d.spellText .word last (' ' :: d.opener :: rest) := by
  obtain ⟨first, hne, hfirst, hskip⟩ := readNumber_eq_offset hnumber
  have hraw : ∀ c ∈ first, d.Raw .word c := fun c hc => h.raw_numeral (hfirst c hc)
  by_cases hs : s = ""
  · subst hs
    have hopener : skipBlanks (d.opener :: rest) = d.opener :: rest :=
      skipBlanks_cons_visible h.visible .opener rest
    cases first with
    | nil =>
        exact absurd rfl hne
    | cons c first =>
        have hspelled : d.spellText .word "" (' ' :: d.opener :: rest) = ' ' :: d.opener :: rest :=
          rfl
        rw [hspelled, skipBlanks_space, hopener, List.cons_append] at hskip
        exact absurd (List.cons.inj hskip).1.symm
          (h.ne_numeral (hfirst c List.mem_cons_self) .opener)
  · rw [skipBlanks_spellText h.visible rfl hs] at hskip
    obtain ⟨last, _, hafter⟩ :=
      exists_of_spellText hraw (endsBefore_cons.mpr (stops_space rfl)) hskip
    exact ⟨last, hafter⟩

/-- Where a number has no offset, a selector that starts with the keyword is taken for one: if an
offset is read there at all, the rest of the selector is left. -/
theorem readOffsetClause_lookalike
    {d : Dialect} (h : d.Ordinary) {type selector : String} (hnumeric : d.isNumeric type = true)
    (hkeyword : d.offsetKeyword.toList <+: selector.toList) {rest : List Char} {k : List Nat}
    {offset : Option Int} {q : Place}
    (hclause : d.readOffsetClause type
      ⟨d.spellText .word selector (' ' :: d.opener :: rest), k⟩ = .ok (offset, q)) :
    ∃ n last, offset = some n ∧
      q = ⟨skipBlanks (d.spellText .word last (' ' :: d.opener :: rest)), k⟩ := by
  obtain ⟨number, hselector⟩ := hkeyword
  have hspelled : d.spellText .word selector (' ' :: d.opener :: rest) = d.offsetKeyword.toList ++
      d.spellText .word (String.ofList number) (' ' :: d.opener :: rest) :=
    spellText_append h.keyword (by simpa using hselector.symm) _
  have hthere : d.offsetKeyword.toList.isPrefixOf
      (d.spellText .word selector (' ' :: d.opener :: rest)) = true := by
    rw [List.isPrefixOf_iff_prefix, hspelled]
    exact List.prefix_append _ _
  have hoffset : d.readOffset (d.spellText .word selector (' ' :: d.opener :: rest)) =
      readNumber (d.spellText .word (String.ofList number) (' ' :: d.opener :: rest)) := by
    rw [readOffset, Seam.near_none, if_pos hthere, hspelled, List.drop_left]
  unfold readOffsetClause at hclause
  rw [if_pos hnumeric] at hclause
  split at hclause
  · cases hclause
  · next r hnumber =>
      rcases offsetResult_eq_ok hnumber with ⟨habsent, _⟩ | ⟨n, left, _, hsome, _⟩
      · exact absurd (hoffset.symm.trans habsent) (readNumber_ne_absent _)
      · cases hsome
  · next n r hnumber =>
      rcases offsetResult_eq_ok hnumber with ⟨_, hnone, _⟩ | ⟨n', left, hleft, hsome, hplace⟩
      · cases hnone
      · obtain ⟨last, rfl⟩ := readNumber_spellText h (hoffset.symm.trans hleft)
        cases hclause
        rw [hplace]
        exact ⟨n, last, rfl, rfl⟩

end Dialect

mutual

/-- No first selector in a node looks like an offset where there is none. -/
def Node.Unmistakable (d : Dialect) : Node → Prop
  | .text _ => True
  | .reference _ => True
  | .placeholder _ _ _ none => True
  | .placeholder _ none _ (some subs) => Submessages.Unmistakable d subs
  | .placeholder _ (some type) format (some subs) =>
      (format = none → ∀ entry, subs.head? = some entry → d.LooksPlain type entry.1.toList) ∧
        Submessages.Unmistakable d subs
  | .tag _ none => True
  | .tag _ (some children) => Message.Unmistakable d children

/-- No first selector in a message looks like an offset where there is none. -/
def Message.Unmistakable (d : Dialect) : List Node → Prop
  | [] => True
  | node :: rest => Node.Unmistakable d node ∧ Message.Unmistakable d rest

/-- No first selector in the bodies of sub-messages looks like an offset where there is none. -/
def Submessages.Unmistakable (d : Dialect) : List (String × List Node) → Prop
  | [] => True
  | (_, body) :: rest => Message.Unmistakable d body ∧ Submessages.Unmistakable d rest

end

/-- The spelling of sub-messages looks like an offset exactly if their first selector does. -/
theorem Dialect.Ordinary.looksPlain_iff
    {d : Dialect} (h : d.Ordinary) (type : String) (owner : Option String)
    (selector : String) (body : Message) (rest : Submessages) (after : List Char) :
    d.LooksPlain type ((Submessages.spell d owner ((selector, body) :: rest) after).drop 1) ↔
      d.LooksPlain type selector.toList := by
  rw [Submessages.spell, List.drop_succ_cons, List.drop_zero, Dialect.LooksPlain,
    Dialect.prefix_spellText_iff h.keyword
      (Dialect.endsBefore_cons.mpr (Dialect.stops_space rfl))]
  rfl

/-- In front of spelled sub-messages, an offset clause leaves all of them, except that it may take
away the start of their first selector. It cannot if it gives the offset that was spelled. -/
theorem Dialect.Ordinary.readOffsetClause_spell_cons
    {d : Dialect} (h : d.Ordinary) {type selector : String} {format : Option Format}
    (hbranching : d.isBranching type = true)
    (hformat : ∀ f, format = some f → f.WellFormed d type)
    {owner : Option String} {body : Message} {rest : Submessages}
    (hsubs : Submessages.WellFormed d owner ((selector, body) :: rest))
    {after : List Char} {k : List Nat} {offset : Option Int} {q : Place}
    (hclause : d.readOffsetClause type
      ⟨skipBlanks (d.spellOffsetClause format
        (Submessages.spell d owner ((selector, body) :: rest) after)), k⟩ = .ok (offset, q)) :
    ∃ first,
      q = ⟨skipBlanks (d.spellText .word first (' ' :: d.opener ::
        Message.spell d owner body (d.closer :: Submessages.spell d owner rest after))), k⟩ ∧
        (format = offset.map .offset →
          first = selector ∧ (format = none → d.LooksPlain type selector.toList)) := by
  have hselector : selector ≠ "" := hsubs.1
  have hskip := Dialect.skipBlanks_spell_cons h.visible owner hselector body rest after
  by_cases hplain : format = none → d.LooksPlain type selector.toList
  · obtain ⟨offset', hoffset, hspelled⟩ := Dialect.readOffsetClause_spelled h.visible
      h.startsInk_keyword hbranching hformat (by simp) hsubs
      (fun hnone => (h.looksPlain_iff type owner selector body rest after).mpr (hplain hnone)) k
    cases hspelled.symm.trans hclause
    refine ⟨selector, ?_, fun _ => ⟨rfl, hplain⟩⟩
    rw [hskip, Dialect.skipBlanks_spellText h.visible rfl hselector]
  · simp only [Dialect.LooksPlain, Classical.not_imp, not_not] at hplain
    obtain ⟨rfl, hnumeric, hkeyword⟩ := hplain
    simp only [Dialect.spellOffsetClause, hskip] at hclause
    obtain ⟨n, last, rfl, rfl⟩ := Dialect.readOffsetClause_lookalike h hnumeric hkeyword hclause
    refine ⟨last, rfl, ?_⟩
    intro hsome
    cases hsome

mutual

theorem Node.Unmistakable.unambiguous
    {d : Dialect} (h : d.Ordinary) {owner : Option String} (node : Node) (after : List Char)
    (hnode : node.WellFormed d owner) (hclear : node.Unmistakable d) :
    node.Unambiguous d after := by
  match node with
  | .text s => trivial
  | .reference id => trivial
  | .placeholder id none format subs => trivial
  | .placeholder id (some type) format none =>
      obtain ⟨_, _, hplain, _⟩ := hnode
      intro s _ hnumeric
      simp [h.isBranching hnumeric] at hplain
  | .placeholder id (some type) format (some []) =>
      obtain ⟨_, _, _, _, hcomplete, _⟩ := hnode
      simp [Submessages.isComplete] at hcomplete
  | .placeholder id (some type) format (some ((selector, body) :: rest)) =>
      obtain ⟨_, _, _, _, _, _, _, hbody, hrest⟩ := hnode
      obtain ⟨hfirst, hbodyClear, hrestClear⟩ := hclear
      refine ⟨?_, ?_, ?_⟩
      · intro hformat
        exact (h.looksPlain_iff type _ selector body rest _).mpr (hfirst hformat _ rfl)
      · exact Message.Unmistakable.unambiguous h body _ hbody hbodyClear
      · exact Submessages.Unmistakable.unambiguous h rest _ hrest hrestClear
  | .tag name none => trivial
  | .tag name (some children) =>
      obtain ⟨_, _, _, hchildren⟩ := hnode
      exact Message.Unmistakable.unambiguous h children _ hchildren hclear

theorem Message.Unmistakable.unambiguous
    {d : Dialect} (h : d.Ordinary) {owner : Option String} (m : List Node) (after : List Char)
    (hm : Message.WellFormed d owner m) (hclear : Message.Unmistakable d m) :
    Message.Unambiguous d owner m after := by
  match m with
  | [] => trivial
  | node :: rest =>
      obtain ⟨hnode, _, hrest⟩ := hm
      obtain ⟨hnodeClear, hrestClear⟩ := hclear
      constructor
      · exact Node.Unmistakable.unambiguous h node _ hnode hnodeClear
      · exact Message.Unmistakable.unambiguous h rest after hrest hrestClear

theorem Submessages.Unmistakable.unambiguous
    {d : Dialect} (h : d.Ordinary) {owner : Option String} (subs : List (String × List Node))
    (after : List Char)
    (hsubs : Submessages.WellFormed d owner subs) (hclear : Submessages.Unmistakable d subs) :
    Submessages.Unambiguous d owner subs after := by
  match subs with
  | [] => trivial
  | (selector, body) :: rest =>
      obtain ⟨_, hbody, hrest⟩ := hsubs
      obtain ⟨hbodyClear, hrestClear⟩ := hclear
      constructor
      · exact Message.Unmistakable.unambiguous h body _ hbody hbodyClear
      · exact Submessages.Unmistakable.unambiguous h rest after hrest hrestClear

end

end MessageFormat
