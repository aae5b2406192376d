import MessageFormat.Proofs.Derivation
import MessageFormat.Reader

/-!
# Derivations and rules agree

What a rule answers is derived, be it a result or a failure, by induction on the measure on which
the rules end (`readBody_explained`). Conversely a derived reading is what the rule answers
(`Reads.answers`), so a body is read from a place in one way only. For a whole text this says what
a reader returns (`parse_eq_ok_iff`) and what it refuses (`read_eq_error`).
-/

namespace MessageFormat

/-- The answer of a rule is derived: a result and the place after it, or a failure. -/
def Parsed.Explained {α : Type} {bound : Nat} (answer : Parsed α bound)
    (reads : α → Place → Prop) (fails : Failure → Prop) : Prop :=
  match answer with
  | .ok r => reads r.val.1 r.val.2
  | .error f => fails f

theorem Parsed.plain_eq_ok_iff
    {α : Type} {bound : Nat} {answer : Parsed α bound} {a : α} {q : Place} :
    answer.plain = .ok (a, q) ↔ ∃ hq, answer = .ok ⟨(a, q), hq⟩ := by
  cases answer with
  | error f => simp [plain]
  | ok r =>
      obtain ⟨⟨b, s⟩, hs⟩ := r
      constructor
      · intro h
        cases h
        exact ⟨hs, rfl⟩
      · rintro ⟨hq, h⟩
        cases h
        rfl

namespace Context

mutual

theorem readBody_explained
    (cx : Context) (p : Place) :
    (readBody cx p).Explained (fun body => Reads cx p (.body body)) (Fails cx p .body) := by
  rw [readBody]
  split
  · next hpeek => exact Reads.bodyAtEnd hpeek
  · next c hpeek =>
      split
      · next hends => exact Reads.bodyEnded hpeek hends
      · next hends =>
          have hends : cx.endsBody c = false := by
            simpa using hends
          have hpiece := readPiece_explained cx p c hpeek
          split
          · next f hf =>
              rw [hf] at hpiece
              exact Fails.piece hpeek hends hpiece
          · next name q hq hclosing =>
              rw [hclosing] at hpiece
              exact Reads.bodyClosed hpeek hends hpiece
          · next node q hq hnode =>
              rw [hnode] at hpiece
              have hlt : q.left < p.left := Reads.left_lt hpiece hpeek
              have hbody := readBody_explained cx q
              rw [dif_pos hlt]
              split
              · next f hf =>
                  rw [hf] at hbody
                  exact Fails.rest hpeek hends hpiece hbody
              · next body r hr hrest =>
                  rw [hrest] at hbody
                  exact Reads.bodyNode hpeek hends hpiece hbody
termination_by 4 * p.left + 3

theorem readPiece_explained
    (cx : Context) (p : Place) (c : Char) (hpeek : p.peek = some c) :
    (readPiece cx p c hpeek).Explained (fun piece => Reads cx p (.piece c piece))
      (Fails cx p (.piece c)) := by
  have hlt := Place.advance_left_lt hpeek
  rw [readPiece]
  split
  · next node hatom => exact Reads.atom hatom
  · next hatom =>
      split
      · next hopener =>
          have hnode := readPlaceholder_explained cx p.advance
          split
          · next f hf =>
              rw [hf] at hnode
              exact Fails.opened hatom hopener hnode
          · next node q hq hok =>
              rw [hok] at hnode
              exact Reads.opened hatom hopener hnode
      · next hopener =>
          split
          · next htag =>
              obtain ⟨htags, hc⟩ : cx.dialect.tagsAllowed = true ∧ c = cx.dialect.tagOpener := by
                simpa using htag
              have hmarkup := readMarkup_explained cx p
              cases hread : readMarkup cx p with
              | error f =>
                  rw [hread] at hmarkup
                  exact Fails.marked hatom htags hc hmarkup
              | ok r =>
                  rw [hread] at hmarkup
                  exact Reads.marked hatom htags hc hmarkup
          · next htag =>
              obtain ⟨hcloser, href, -⟩ := (cx.atom?_eq_none_iff c _).mp hatom
              refine Reads.text ((cx.stops_mode_eq_false_iff c).mpr ⟨hcloser, hopener, ?_, href⟩)
              intro htags hc
              exact htag (by simp [htags, hc])
termination_by 4 * p.left + 2

theorem readPlaceholder_explained
    (cx : Context) (p : Place) :
    (readPlaceholder cx p).Explained (fun node => Reads cx p (.placeholder node))
      (Fails cx p .placeholder) := by
  rw [readPlaceholder]
  split
  · next f hhead => exact Fails.head hhead
  · next id q hhead => exact Reads.bare hhead
  · next id type q hhead => exact Reads.typed hhead
  · next id type q hhead =>
      have hq := (Dialect.readHead_follows hhead).left_le
      split
      · next f hoffset => exact Fails.offset hhead hoffset
      · next offset r hoffset =>
          have hr := (Dialect.readOffsetClause_follows hoffset).left_le
          split
          · next hbranching =>
              split
              · next henter => exact Fails.placeholderTooDeep hhead hoffset hbranching henter
              · next inner henter =>
                  have hsubs := readSubmessages_explained inner r
                  split
                  · next f hf =>
                      rw [hf] at hsubs
                      exact Fails.submessages hhead hoffset hbranching henter hsubs
                  · next subs s hs hok =>
                      rw [hok] at hsubs
                      split
                      · next hcomplete =>
                          split
                          · next f hcloser =>
                              exact Fails.branchingCloser hhead hoffset hbranching henter hsubs
                                hcomplete hcloser
                          · next t hcloser =>
                              exact Reads.branching hhead hoffset hbranching henter hsubs
                                hcomplete hcloser
                      · next hcomplete =>
                          exact Fails.incomplete hhead hoffset hbranching henter hsubs
                            (by simpa using hcomplete)
          · next hplain =>
              have hplain : cx.dialect.isBranching type = false := by
                simpa using hplain
              unfold readFormatted
              split
              · next f hformat => exact Fails.format hhead hoffset hplain hformat
              · next format s hformat =>
                  split
                  · next f hcloser =>
                      exact Fails.formatCloser hhead hoffset hplain hformat hcloser
                  · next t hcloser =>
                      exact Reads.formatted hhead hoffset hplain hformat hcloser
termination_by 4 * p.left + 1

theorem readSubmessages_explained
    (cx : Context) (p : Place) :
    (readSubmessages cx p).Explained (fun subs => Reads cx p (.submessages subs))
      (Fails cx p .submessages) := by
  rw [readSubmessages]
  split
  · next hpeek => exact Reads.entriesEnded hpeek
  · next hpeek =>
      split
      · next f hselector => exact Fails.selector hpeek hselector
      · next selector q hselector =>
          have hq := Dialect.readSelector_left_lt hselector
          have hbody := readBody_explained cx q
          split
          · next f hf =>
              rw [hf] at hbody
              exact Fails.entryBody hpeek hselector hbody
          · next body r hr hok =>
              rw [hok] at hbody
              split
              · next hcloser =>
                  have hskip := (r.advance.skip_follows.trans r.advance_follows).left_le
                  have hs : r.advance.skip.left < p.left :=
                    Nat.lt_of_le_of_lt (Nat.le_trans hskip hr) hq
                  have hsubs := readSubmessages_explained cx r.advance.skip
                  split
                  · next f hf =>
                      rw [hf] at hsubs
                      exact Fails.laterEntry hpeek hselector hbody hcloser hsubs
                  · next subs t ht hsubsok =>
                      rw [hsubsok] at hsubs
                      exact Reads.entry hpeek hselector hbody hcloser hsubs
              · next hcloser => exact Fails.entryCloser hpeek hselector hbody hcloser
termination_by 4 * p.left

theorem readMarkup_explained
    (cx : Context) (p : Place) :
    (readMarkup cx p).Explained (fun piece => Reads cx p (.markup piece))
      (Fails cx p .markup) := by
  rw [readMarkup]
  split
  · next f hhead => exact Fails.tagHead hhead
  · next q hhead => exact Reads.keptMarkup hhead
  · next name q hhead => exact Reads.closingTag hhead
  · next name q hhead => exact Reads.emptyTag hhead
  · next name q hhead =>
      have hq := Dialect.readTagHead_left_lt hhead
      split
      · next henter => exact Fails.tagTooDeep hhead henter
      · next inner henter =>
          have hbody := readBody_explained inner q
          split
          · next f hf =>
              rw [hf] at hbody
              exact Fails.tagBody hhead henter hbody
          · next body r hr hok =>
              rw [hok] at hbody
              split
              · next hclosed => exact Reads.tag hhead henter hbody hclosed
              · next hclosed => exact Fails.tagUnclosed hhead henter hbody (by simpa using hclosed)
termination_by 4 * p.left + 1

end

/-- The rule answers with this reading, which ends at `q`. -/
def Answers (cx : Context) (p q : Place) : Reading → Prop
  | .body body => (readBody cx p).plain = .ok (body, q)
  | .piece first piece =>
      ∀ hpeek : p.peek = some first, (readPiece cx p first hpeek).plain = .ok (piece, q)
  | .placeholder node => (readPlaceholder cx p).plain = .ok (node, q)
  | .submessages subs => (readSubmessages cx p).plain = .ok (subs, q)
  | .markup piece => (readMarkup cx p).plain = .ok (piece, q)

/-- What is derived is what the rule answers. -/
theorem Reads.answers
    {cx : Context} {p q : Place} {x : Reading}
    (h : Reads cx p x q) :
    Answers cx p q x := by
  induction h with
  | bodyAtEnd hpeek =>
      simp only [Answers]
      rw [readBody]
      split
      · rfl
      · next c hc =>
          rw [hpeek] at hc
          cases hc
  | bodyEnded hpeek hends =>
      simp only [Answers]
      rw [readBody]
      split
      · rfl
      · next c hc =>
          obtain rfl : _ = c := Option.some.inj (hpeek.symm.trans hc)
          rw [if_pos hends]
          rfl
  | bodyClosed hpeek hends hpiece ih =>
      simp only [Answers]
      obtain ⟨hq, hok⟩ := Parsed.plain_eq_ok_iff.mp (ih hpeek)
      rw [readBody]
      split
      · next hc =>
          rw [hpeek] at hc
          cases hc
      · next c hc =>
          obtain rfl : _ = c := Option.some.inj (hpeek.symm.trans hc)
          simp [hends, hok, Parsed.plain]
  | bodyNode hpeek hends hpiece hbody ihpiece ihbody =>
      simp only [Answers]
      obtain ⟨hq, hok⟩ := Parsed.plain_eq_ok_iff.mp (ihpiece hpeek)
      obtain ⟨hr, hrest⟩ := Parsed.plain_eq_ok_iff.mp ihbody
      rw [readBody]
      split
      · next hc =>
          rw [hpeek] at hc
          cases hc
      · next c hc =>
          obtain rfl : _ = c := Option.some.inj (hpeek.symm.trans hc)
          simp [hends, hok, hpiece.left_lt hpeek, hrest, Parsed.plain]
  | atom hatom =>
      intro hpeek
      rw [readPiece]
      split
      · next hnode =>
          cases hatom.symm.trans hnode
          rfl
      · next hnone =>
          cases hatom.symm.trans hnone
  | opened hatom hopener hnode ih =>
      intro hpeek
      obtain ⟨hq, hok⟩ := Parsed.plain_eq_ok_iff.mp ih
      subst hopener
      rw [readPiece]
      simp [hatom, hok, Parsed.plain]
  | @marked cx p q c piece hatom htags hopener hmarkup ih =>
      intro hpeek
      have hne : cx.dialect.tagOpener ≠ cx.dialect.opener := cx.dialect.char_ne .tagOpener .opener
      subst hopener
      rw [readPiece]
      simpa [hatom, htags, hne, Answers] using ih
  | @text cx p c hraw =>
      intro hpeek
      obtain ⟨hcloser, hopener, htags, href⟩ := (cx.stops_mode_eq_false_iff c).mp hraw
      have hatom : cx.atom? c p.advance.peek = none :=
        (cx.atom?_eq_none_iff c _).mpr
          ⟨hcloser, href, fun hallowed htag => absurd htag (htags hallowed)⟩
      have htag : (cx.dialect.tagsAllowed && c == cx.dialect.tagOpener) = false := by
        simpa using htags
      rw [readPiece]
      simp [hatom, hopener, htag, Parsed.plain]
  | bare hhead =>
      simp only [Answers]
      rw [readPlaceholder]
      split <;> simp_all [Parsed.plain]
  | typed hhead =>
      simp only [Answers]
      rw [readPlaceholder]
      split <;> simp_all [Parsed.plain]
  | formatted hhead hoffset hplain hformat hcloser =>
      simp only [Answers]
      rw [readPlaceholder]
      split
      · next h => cases hhead.symm.trans h
      · next h => cases hhead.symm.trans h
      · next h => cases hhead.symm.trans h
      · next h =>
          cases hhead.symm.trans h
          split
          · next h => cases hoffset.symm.trans h
          · next h =>
              cases hoffset.symm.trans h
              rw [if_neg (by simp [hplain]), readFormatted]
              split
              · next h => cases hformat.symm.trans h
              · next h =>
                  cases hformat.symm.trans h
                  split
                  · next h => cases hcloser.symm.trans h
                  · next h =>
                      cases hcloser.symm.trans h
                      rfl
  | branching hhead hoffset hbranching henter hsubs hcomplete hcloser ih =>
      simp only [Answers]
      obtain ⟨hs, hok⟩ := Parsed.plain_eq_ok_iff.mp ih
      rw [readPlaceholder]
      split
      · next h => cases hhead.symm.trans h
      · next h => cases hhead.symm.trans h
      · next h => cases hhead.symm.trans h
      · next h =>
          cases hhead.symm.trans h
          split
          · next h => cases hoffset.symm.trans h
          · next h =>
              cases hoffset.symm.trans h
              simp only [hbranching, henter, hok, hcomplete, if_true]
              split
              · next h => cases hcloser.symm.trans h
              · next h =>
                  cases hcloser.symm.trans h
                  rfl
  | entriesEnded hpeek =>
      simp only [Answers]
      rw [readSubmessages, if_pos hpeek]
      rfl
  | entry hpeek hselector hbody hcloser hsubs ihbody ihsubs =>
      simp only [Answers]
      obtain ⟨hr, hok⟩ := Parsed.plain_eq_ok_iff.mp ihbody
      obtain ⟨ht, hrest⟩ := Parsed.plain_eq_ok_iff.mp ihsubs
      rw [readSubmessages, if_neg hpeek]
      split
      · next h => cases hselector.symm.trans h
      · next h =>
          cases hselector.symm.trans h
          simp only [hok, hcloser, hrest, if_true]
          rfl
  | keptMarkup hhead =>
      simp only [Answers]
      rw [readMarkup]
      split <;> simp_all [Parsed.plain]
  | closingTag hhead =>
      simp only [Answers]
      rw [readMarkup]
      split <;> simp_all [Parsed.plain]
  | emptyTag hhead =>
      simp only [Answers]
      rw [readMarkup]
      split <;> simp_all [Parsed.plain]
  | tag hhead henter hbody hclosed ih =>
      simp only [Answers]
      obtain ⟨hr, hok⟩ := Parsed.plain_eq_ok_iff.mp ih
      rw [readMarkup]
      split
      · next h => cases hhead.symm.trans h
      · next h => cases hhead.symm.trans h
      · next h => cases hhead.symm.trans h
      · next h => cases hhead.symm.trans h
      · next h =>
          cases hhead.symm.trans h
          simp only [henter, hok, hclosed, if_true]
          rfl

/-- A place is read in one way only. -/
theorem Reads.body_unique
    {cx : Context} {p q r : Place} {x y : Body}
    (hx : Reads cx p (.body x) q) (hy : Reads cx p (.body y) r) :
    x = y ∧ q = r := by
  have h : Except.ok (x, q) = Except.ok (y, r) := hx.answers.symm.trans hy.answers
  cases h
  exact ⟨rfl, rfl⟩

theorem Reads.piece_unique
    {cx : Context} {p q r : Place} {c : Char} {x y : Piece}
    (hx : Reads cx p (.piece c x) q) (hy : Reads cx p (.piece c y) r) (hpeek : p.peek = some c) :
    x = y ∧ q = r := by
  have h : Except.ok (x, q) = Except.ok (y, r) :=
    (hx.answers hpeek).symm.trans (hy.answers hpeek)
  cases h
  exact ⟨rfl, rfl⟩

end Context

namespace Reader

/-- The context in which a reader reads a whole text. -/
def context (r : Reader) : Context where
  dialect := r.dialect
  limit := r.depthLimit

/-- The text is longer than the reader allows. -/
def Refuses (r : Reader) (text : List Char) : Prop :=
  0 < r.maxSize ∧ r.maxSize < text.length

theorem read_eq_ok_iff
    {r : Reader} {text : List Char} {m : Message} {p : Place} :
    r.read text = .ok (m, p)
      ↔
    ¬ r.Refuses text ∧ ∃ closed, Context.Reads r.context ⟨text, []⟩ (.body ⟨m, closed⟩) p := by
  have hexplained := Context.readBody_explained r.context ⟨text, []⟩
  constructor
  · intro h
    unfold read at h
    split at h
    · cases h
    · next hsize =>
        refine ⟨hsize, ?_⟩
        cases hbody : Context.readBody r.context ⟨text, []⟩ with
        | error f =>
            simp only [context] at hbody
            simp [Dialect.read, hbody] at h
        | ok result =>
            rw [hbody] at hexplained
            obtain ⟨⟨⟨nodes, closed⟩, q⟩, hq⟩ := result
            simp only [context] at hbody
            simp only [Dialect.read, hbody, mapError_ok] at h
            cases h
            exact ⟨closed, hexplained⟩
  · rintro ⟨hsize, closed, hreads⟩
    obtain ⟨hp, hbody⟩ := Parsed.plain_eq_ok_iff.mp hreads.answers
    simp only [context] at hbody
    unfold Refuses at hsize
    unfold read
    rw [if_neg hsize]
    simp [Dialect.read, hbody]

theorem read_eq_error
    {r : Reader} {text : List Char} {fault : ReadFault}
    (h : r.read text = .error fault) :
    (r.Refuses text ∧ fault = .tooLarge text.length r.maxSize)
      ∨
    ∃ f, Context.Fails r.context ⟨text, []⟩ .body f ∧ fault = .failure f := by
  have hexplained := Context.readBody_explained r.context ⟨text, []⟩
  unfold read at h
  split at h
  · next hsize =>
      cases h
      exact Or.inl ⟨hsize, rfl⟩
  · right
    cases hbody : Context.readBody r.context ⟨text, []⟩ with
    | error f =>
        rw [hbody] at hexplained
        simp only [context] at hbody
        simp only [Dialect.read, hbody, mapError_error] at h
        cases h
        exact ⟨f, hexplained, rfl⟩
    | ok result =>
        simp only [context] at hbody
        simp [Dialect.read, hbody] at h

/-- What a reader returns is what can be read as a body that nothing encloses. -/
theorem readValue_eq_ok_iff
    {r : Reader} {v : Value} {m : Message} :
    (r.readValue v).outcome = .ok m
      ↔
    ¬ r.Refuses v.display.toList ∧
      ∃ closed p, Context.Reads r.context ⟨v.display.toList, []⟩ (.body ⟨m, closed⟩) p := by
  constructor
  · intro h
    cases hread : r.read v.display.toList with
    | error fault =>
        simp [readValue, hread] at h
    | ok result =>
        obtain ⟨m', p⟩ := result
        simp only [readValue, hread] at h
        cases h
        obtain ⟨hsize, closed, hreads⟩ := read_eq_ok_iff.mp hread
        exact ⟨hsize, closed, p, hreads⟩
  · rintro ⟨hsize, closed, p, hreads⟩
    have hread := read_eq_ok_iff.mpr ⟨hsize, closed, hreads⟩
    simp [readValue, hread]

end Reader

end MessageFormat
