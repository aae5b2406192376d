import MessageFormat.Proofs.Depths
import MessageFormat.Proofs.Derivation.Headers

/-!
# Delimiters that are blanks

Any different characters may be the delimiters of a dialect, and some of them may be blanks. Most of
them do no harm, because delimiters are quoted wherever blanks are skipped. Two do.

A closer that is a blank is skipped before it is looked for, so no placeholder is ever read
(`Reads.closer_visible`). A quote that is a blank ends a word, so nothing in the word can be quoted
(`scan_eq_takeWhile`), and words that need it are not read back.

For a placeholder that has an id only, nothing else can go wrong (`Reader.readValue_bare_iff`).
-/

namespace MessageFormat

namespace Dialect

variable {d : Dialect} {m : Mode} {p q : Place} {id word : String}

/-- A word can be spelled in a dialect: if the quote is a blank, then no character of the word needs
it. -/
def CanSpell (d : Dialect) (word : String) : Prop :=
  isBlank d.quote = true → ∀ c ∈ word.toList, d.stops .word c = false

/-- If the quote ends a text, then the text is as it is written, up to the first character that ends
it. -/
theorem scan_eq_takeWhile
    (hquote : d.stops m d.quote = true) (text : List Char) :
    d.scan m text =
      (text.takeWhile fun c => !d.stops m c, text.dropWhile fun c => !d.stops m c) := by
  unfold scan
  induction text with
  | nil =>
      rfl
  | cons c rest ih =>
      cases hc : d.stops m c with
      | true => simp [scanFrom_stop hc, hc]
      | false => simp [scanFrom_raw hc (ne_of_stops hc hquote), ih, withChar, hc]

/-- A text that is not empty starts with a character that does not end it. -/
theorem scan_head?
    {text : List Char} (h : (d.scan m text).1 ≠ []) :
    ∃ c, text.head? = some c ∧ d.stops m c = false := by
  cases text with
  | nil => exact absurd rfl h
  | cons c rest =>
      refine ⟨c, rfl, ?_⟩
      cases hc : d.stops m c with
      | false => rfl
      | true =>
          rw [scan, scanFrom_stop hc] at h
          exact absurd rfl h

theorem readWord_skip
    {what : Expectation} (h : d.readWord what p = .ok (word, q)) :
    q.skip = q := by
  obtain ⟨-, r, -, rfl⟩ := readWord_eq_ok_iff.mp h
  exact Place.skip_skip r

/-- A word that is read can be spelled. -/
theorem canSpell_of_readWord
    {what : Expectation} (h : d.readWord what p = .ok (word, q)) :
    d.CanSpell word := by
  intro hquote c hc
  obtain ⟨-, r, hscan, -⟩ := readWord_eq_ok_iff.mp h
  have hword : word.toList = p.skip.rest.takeWhile fun c => !d.stops .word c := by
    rw [Place.scan, scan_eq_takeWhile (stops_blank rfl hquote), Prod.mk.injEq] at hscan
    rw [← hscan.1, String.toList_ofList]
  rw [hword] at hc
  have hraw := List.all_eq_true.mp (List.all_takeWhile (p := fun c => !d.stops .word c)) c hc
  simpa using hraw

/-- A word that can be spelled is read back in front of whatever ends a word. -/
theorem scan_spellText_of_canSpell
    (h : d.CanSpell word) (after : List Char) (hafter : d.EndsBefore .word after) :
    d.scan .word (d.spellText .word word after) = (word.toList, after) := by
  cases hquote : isBlank d.quote with
  | false =>
      have hcovers : d.Covers .word (d.stops .word) :=
        d.covers_of_quotesAnything rfl (fun _ hstop => hstop) hquote
      exact Quoted.scan_spell hcovers word.toList hafter
  | true =>
      have hstop : d.stops .word d.quote = true := stops_blank rfl hquote
      have hraw : ∀ c ∈ word.toList, c ≠ d.quote ∧ d.stops .word c = false := by
        intro c hc
        exact ⟨ne_of_stops (h hquote c hc) hstop, h hquote c hc⟩
      have hspell : d.spellText .word word after = word.toList ++ after := by
        simpa [spellText, Quoted.spell_nil] using Quoted.spell_append_raw hraw []
      have hword : ∀ c ∈ word.toList, (!d.stops .word c) = true := by
        intro c hc
        rw [h hquote c hc]
        rfl
      have hend : after.takeWhile (fun c => !d.stops .word c) = [] ∧
          after.dropWhile (fun c => !d.stops .word c) = after := by
        cases after with
        | nil => exact ⟨rfl, rfl⟩
        | cons c rest => simp [endsBefore_cons.mp hafter]
      rw [hspell, scan_eq_takeWhile hstop, List.takeWhile_append_of_pos hword,
        List.dropWhile_append_of_pos hword, hend.1, hend.2, List.append_nil]

/-- The id of a placeholder is read back up to the closer, if the closer is no blank. -/
theorem readHead_bare_of_canSpell
    (hid : id ≠ "") (hcloser : isBlank d.closer = false) (h : d.CanSpell id)
    (after : List Char) (k : List Nat) :
    d.readHead ⟨d.spellText .word id (d.closer :: after), k⟩ = .ok (.bare id, ⟨after, k⟩) := by
  have hscan := scan_spellText_of_canSpell h (d.closer :: after)
    (endsBefore_cons.mpr (d.stops_closer .word))
  have hsome : (d.scan .word (d.spellText .word id (d.closer :: after))).1 ≠ [] := by
    simpa [hscan] using hid
  obtain ⟨c, hhead, hc⟩ := scan_head? hsome
  have hskip : skipBlanks (d.spellText .word id (d.closer :: after)) =
      d.spellText .word id (d.closer :: after) :=
    skipBlanks_of_head? (by simpa [hhead] using isBlank_of_stops rfl hc)
  refine readHead_bare_iff.mpr ⟨⟨d.closer :: after, k⟩, ?_, rfl, rfl⟩
  refine readWord_eq_ok_iff.mpr ⟨hid, ⟨d.closer :: after, k⟩, ?_, ?_⟩
  · simp [Place.skip, Place.scan, hskip, hscan]
  · exact (Place.skip_eq_self_iff _).mpr (by simpa [Place.peek] using hcloser)

end Dialect

namespace Context

variable {cx : Context} {p q : Place} {node : Node} {id : String}

/-- A placeholder is read only if the closer is no blank: it is looked for where blanks have been
skipped. -/
theorem Reads.closer_visible
    (h : Reads cx p (.placeholder node) q) :
    isBlank cx.dialect.closer = false := by
  have hskipped : ∀ r : Place, r.skip = r → r.peek = some cx.dialect.closer →
      isBlank cx.dialect.closer = false := by
    intro r hskip hpeek
    simpa [hpeek] using (Place.skip_eq_self_iff r).mp hskip
  cases h with
  | bare hhead =>
      obtain ⟨r, hword, hpeek, -⟩ := Dialect.readHead_bare_iff.mp hhead
      exact hskipped r (Dialect.readWord_skip hword) hpeek
  | typed hhead =>
      obtain ⟨r, s, -, -, hword, hpeek, -⟩ := Dialect.readHead_typed_iff.mp hhead
      exact hskipped s (Dialect.readWord_skip hword) hpeek
  | formatted hhead hoffset hplain hformat hcloser =>
      exact hskipped _ (Place.skip_skip _) (Dialect.readCloser_eq_ok_iff.mp hcloser).1
  | branching hhead hoffset hbranching henter hsubs hcomplete hcloser =>
      exact hskipped _ (Place.skip_skip _) (Dialect.readCloser_eq_ok_iff.mp hcloser).1

/-- The id of a placeholder that ends after it can be spelled. -/
theorem Reads.canSpell_bare
    (h : Reads cx p (.placeholder (Node.bare id)) q) :
    cx.dialect.CanSpell id := by
  cases h with
  | bare hhead =>
      obtain ⟨r, hword, -⟩ := Dialect.readHead_bare_iff.mp hhead
      exact Dialect.canSpell_of_readWord hword

/-- A node that is read as a placeholder stands by itself in a body. -/
theorem Reads.placeholder_before
    (h : Reads cx p (.placeholder node) q) (rest : Message) :
    node.before rest = node :: rest := by
  cases h <;> rfl

/-- A body that holds nothing but a placeholder. -/
theorem Reads.body_of_placeholder
    {text : List Char} (h : Reads cx ⟨text, []⟩ (.placeholder node) ⟨[], []⟩) :
    Reads cx ⟨cx.dialect.opener :: text, []⟩ (.body ⟨[node], false⟩) ⟨[], []⟩ := by
  have hends : cx.endsBody cx.dialect.opener = false :=
    endsBody_of_ne (cx.dialect.char_ne .opener .closer)
  have hpiece : Reads cx ⟨cx.dialect.opener :: text, []⟩
      (.piece cx.dialect.opener (.node node)) ⟨[], []⟩ :=
    Reads.opened (cx.atom?_opener _) rfl h
  have hbody := Reads.bodyNode rfl hends hpiece (Reads.bodyAtEnd rfl)
  rwa [Body.before, h.placeholder_before] at hbody

/-- A placeholder with an id only is read back exactly if its id can be spelled and the closer is no
blank. -/
theorem readsBody_bare_iff
    (cx : Context) (hid : id ≠ "") :
    (∃ closed q, Reads cx ⟨Message.spell cx.dialect none [Node.bare id] [], []⟩
        (.body ⟨[Node.bare id], closed⟩) q)
      ↔
    isBlank cx.dialect.closer = false ∧ cx.dialect.CanSpell id := by
  have hspell : Message.spell cx.dialect none [Node.bare id] [] =
      cx.dialect.opener :: cx.dialect.spellText .word id [cx.dialect.closer] := by
    simp [Message.spell, Node.bare, Node.spell]
  have hends : cx.endsBody cx.dialect.opener = false :=
    endsBody_of_ne (cx.dialect.char_ne .opener .closer)
  rw [hspell]
  constructor
  · rintro ⟨closed, q, hreads⟩
    rcases hreads.of_body rfl hends with ⟨name, hpiece, -⟩ | ⟨node, r, rest, hpiece, -, hbody⟩
    · obtain ⟨node, hnode, -⟩ := hpiece.of_opener
      cases hnode
    · obtain ⟨node', hnode', hplaceholder⟩ := hpiece.of_opener
      cases hnode'
      have hbefore : [Node.bare id] = node.before rest.nodes := congrArg Body.nodes hbody
      rw [hplaceholder.placeholder_before] at hbefore
      obtain rfl : Node.bare id = node := (List.cons.inj hbefore).1
      exact ⟨hplaceholder.closer_visible, hplaceholder.canSpell_bare⟩
  · rintro ⟨hcloser, hspells⟩
    have hhead := Dialect.readHead_bare_of_canSpell hid hcloser hspells [] []
    have hplaceholder : Reads cx ⟨cx.dialect.spellText .word id [cx.dialect.closer], []⟩
        (.placeholder (Node.bare id)) ⟨[], []⟩ :=
      Reads.bare hhead
    exact ⟨false, ⟨[], []⟩, hplaceholder.body_of_placeholder⟩

end Context

/-- A placeholder with an id only is always written, and it is read back exactly if its text is not
larger than the reader allows, the closer of the dialect is no blank, and the quote is no blank or
no character of the id needs it. -/
theorem Reader.readValue_bare_iff
    (d : Dialect) (frames : Int) (maxSize depthLimit : Option Int) (id : String) (hid : id ≠ "") :
    ∃ text r,
      (d.serializeOnStack frames (Message.toValue [Node.bare id])).outcome = .ok text ∧
      (Reader.make frames (.dialect d) (.dict []) maxSize depthLimit).outcome = .ok r ∧
      ((r.readValue (.str text)).outcome = .ok [Node.bare id]
        ↔
      ¬ r.Refuses text.toList ∧
        isBlank d.closer = false ∧
        (isBlank d.quote = true → ∀ c ∈ id.toList, d.stops .word c = false)) := by
  have hwell : Message.WellFormed d none [Node.bare id] := by
    simp [Message.WellFormed, Node.WellFormed, Node.bare, Message.startsWithText, hid]
  have hdepth : (Message.depth [Node.bare id] : Int) ≤
      clampDepth frames standardReserve standardDepth := by
    simpa [Message.depth, Node.depth, Node.bare] using clampDepth_nonneg frames
  have hdialect : (Reader.dialectOf (.dialect d) (.dict [])).outcome = .ok d := rfl
  refine ⟨String.ofList (Message.spell d none [Node.bare id] []), _, ?_,
    Reader.make_outcome hdialect frames maxSize depthLimit, ?_⟩
  · rw [d.serializeOnStack_outcome, Dialect.serialize_eq hwell hdepth]
    rfl
  · rw [Reader.readValue_eq_ok_iff, Value.display, String.toList_ofList]
    exact and_congr_right' (Context.readsBody_bare_iff (Reader.context _) hid)

/-- The standard dialect with a blank as its closer. -/
def blankCloser : Dialect :=
  { Dialect.standard with closer := ' ', distinct := by decide }

/-- The standard dialect with a blank as its quote. -/
def blankQuote : Dialect :=
  { Dialect.standard with quote := ' ', distinct := by decide }

/-- Where the quote is a blank, an id that needs no quote is read back. -/
theorem Reader.readValue_bare_iff_blankQuote :
    "user" ≠ "" ∧
      ∃ text r,
        (blankQuote.serializeOnStack 1000 (Message.toValue [Node.bare "user"])).outcome =
          .ok text ∧
        (Reader.make 1000 (.dialect blankQuote) (.dict []) none none).outcome = .ok r ∧
        ((r.readValue (.str text)).outcome = .ok [Node.bare "user"]
          ↔
        ¬ r.Refuses text.toList ∧
          isBlank blankQuote.closer = false ∧
          (isBlank blankQuote.quote = true →
            ∀ c ∈ "user".toList, blankQuote.stops .word c = false)) :=
  ⟨by decide, Reader.readValue_bare_iff blankQuote 1000 none none "user" (by decide)⟩

/-- Not in every dialect are placeholders read back: a closer that is a blank is not found. -/
theorem Reader.not_readValue_bare :
    ¬ ∀ (d : Dialect) (id : String), id ≠ "" →
      ∃ text r,
        (d.serializeOnStack 1000 (Message.toValue [Node.bare id])).outcome = .ok text ∧
        (Reader.make 1000 (.dialect d) (.dict []) none none).outcome = .ok r ∧
        (r.readValue (.str text)).outcome = .ok [Node.bare id] := by
  intro hall
  obtain ⟨text, r, htext, hmake, hread⟩ := hall blankCloser "a" (by decide)
  have hwritten : (blankCloser.serializeOnStack 1000 (Message.toValue [Node.bare "a"])).outcome =
      .ok "\x7ba " := by
    decide +kernel
  cases hwritten.symm.trans htext
  have hdialect :
      (Reader.dialectOf (.dialect blankCloser) (.dict [])).outcome = .ok blankCloser := rfl
  cases (Reader.make_outcome hdialect 1000 none none).symm.trans hmake
  have hlost : ((⟨blankCloser, standardSize, 100⟩ : Reader).readValue
      (.str "\x7ba ")).outcome ≠ .ok [Node.bare "a"] := by
    decide +kernel
  exact hlost hread

end MessageFormat
