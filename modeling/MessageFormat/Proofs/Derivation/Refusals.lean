import MessageFormat.Proofs.Derivation.Agreement

/-!
# Derived failures are answers

What is derived to fail is what the rule answers (`Fails.refuses`). With the converse in
`MessageFormat.Proofs.Derivation.Agreement`, a text is refused with a failure exactly if that
failure is derived (`Reader.read_eq_failure_iff`). A property of all that reading answers can
therefore be shown along derivations, of results and failures alike.
-/

namespace MessageFormat

theorem Parsed.plain_eq_error_iff
    {α : Type} {bound : Nat} {answer : Parsed α bound} {f : Failure} :
    answer.plain = .error f ↔ answer = .error f := by
  cases answer with
  | error g => simp [plain]
  | ok r => simp [plain]

namespace Context

variable {cx inner : Context} {p q r : Place} {id type : String} {offset : Option Int}

section Placeholders

variable
  (hhead : cx.dialect.readHead p = .ok (.formatted id type, q))
  (hoffset : cx.dialect.readOffsetClause type q cx.seam = .ok (offset, r))
include hhead hoffset

/-- After its header, a placeholder without sub-messages is read as its format and closer are. -/
theorem readPlaceholder_plain
    (hplain : cx.dialect.isBranching type = false) :
    (readPlaceholder cx p).plain = (readFormatted cx.dialect id type r).plain := by
  rw [readPlaceholder]
  split
  · next h => cases hhead.symm.trans h
  · next h => cases hhead.symm.trans h
  · next h => cases hhead.symm.trans h
  · next h =>
      cases hhead.symm.trans h
      split
      · next h => cases hoffset.symm.trans h
      · next h =>
          cases hoffset.symm.trans h
          rw [if_neg (by simp [hplain])]
          cases readFormatted cx.dialect id type r with
          | error f => rfl
          | ok x => rfl

variable (hbranching : cx.dialect.isBranching type = true)
include hbranching

/-- A body that the limit forbids is not looked at. -/
theorem readPlaceholder_full
    (henter : cx.enter? (.placeholder id type) = none) :
    (readPlaceholder cx p).plain = .error ⟨.tooDeep cx.limit, r⟩ := by
  rw [readPlaceholder]
  split
  · next h => cases hhead.symm.trans h
  · next h => cases hhead.symm.trans h
  · next h => cases hhead.symm.trans h
  · next h =>
      cases hhead.symm.trans h
      split
      · next h => cases hoffset.symm.trans h
      · next h =>
          cases hoffset.symm.trans h
          simp only [hbranching, henter, if_true]
          rfl

/-- After its header, a placeholder of a branching type is read as its sub-messages are, which have
to be complete, and its closer. -/
theorem readPlaceholder_entered
    (henter : cx.enter? (.placeholder id type) = some inner) :
    (readPlaceholder cx p).plain =
      match (readSubmessages inner r).plain with
      | .error f => .error f
      | .ok (subs, s) =>
          if subs.isComplete requiredSelector then
            match cx.dialect.readCloser s with
            | .error f => .error f
            | .ok t => .ok (.placeholder id (some type) (offset.map .offset) (some subs), t)
          else
            s.expected .requiredSubmessage := by
  rw [readPlaceholder]
  split
  · next h => cases hhead.symm.trans h
  · next h => cases hhead.symm.trans h
  · next h => cases hhead.symm.trans h
  · next h =>
      cases hhead.symm.trans h
      split
      · next h => cases hoffset.symm.trans h
      · next h =>
          cases hoffset.symm.trans h
          simp only [hbranching, henter, if_true]
          cases readSubmessages inner r with
          | error f => rfl
          | ok result =>
              obtain ⟨⟨subs, s⟩, hs⟩ := result
              cases hcomplete : subs.isComplete requiredSelector with
              | false => simp [Parsed.plain, Place.expected, hcomplete]
              | true =>
                  simp only [hcomplete, if_true]
                  split
                  · next hcloser => simp [Parsed.plain, hcomplete, hcloser]
                  · next hcloser => simp [Parsed.plain, hcomplete, hcloser]

end Placeholders

section Tags

variable {name : String}
  (hhead : cx.dialect.readTagHead cx.enclosing p = .ok (.opening name, q))
include hhead

/-- Markup that the limit forbids to enter is not looked at. -/
theorem readMarkup_full
    (henter : cx.enter? (.tag name) = none) :
    readMarkup cx p = .error ⟨.tooDeep cx.limit, q⟩ := by
  rw [readMarkup]
  split
  · next h => cases hhead.symm.trans h
  · next h => cases hhead.symm.trans h
  · next h => cases hhead.symm.trans h
  · next h => cases hhead.symm.trans h
  · next h =>
      cases hhead.symm.trans h
      simp only [henter]

/-- After an opening tag, markup is read as its body is, which has to be closed. -/
theorem readMarkup_entered
    (henter : cx.enter? (.tag name) = some inner) :
    (readMarkup cx p).plain =
      match (readBody inner q).plain with
      | .error f => .error f
      | .ok (body, r) =>
          if body.closed then
            .ok (.node (.tag name (if body.nodes.isEmpty then none else some body.nodes)), r)
          else
            r.expected .closingTag := by
  rw [readMarkup]
  split
  · next h => cases hhead.symm.trans h
  · next h => cases hhead.symm.trans h
  · next h => cases hhead.symm.trans h
  · next h => cases hhead.symm.trans h
  · next h =>
      cases hhead.symm.trans h
      simp only [henter]
      cases readBody inner q with
      | error f => rfl
      | ok result =>
          obtain ⟨⟨body, r⟩, hr⟩ := result
          cases hclosed : body.closed with
          | false => simp [Parsed.plain, Place.expected, hclosed]
          | true => simp [Parsed.plain, hclosed]

end Tags

/-- The rule answers with this failure. -/
def Refuses (cx : Context) (p : Place) (f : Failure) : Rule → Prop
  | .body => readBody cx p = .error f
  | .piece first => ∀ hpeek : p.peek = some first, readPiece cx p first hpeek = .error f
  | .placeholder => readPlaceholder cx p = .error f
  | .submessages => readSubmessages cx p = .error f
  | .markup => readMarkup cx p = .error f

theorem Fails.refuses
    {cx : Context} {p : Place} {rule : Rule} {f : Failure}
    (h : Fails cx p rule f) :
    Refuses cx p f rule := by
  induction h with
  | piece hpeek hends hpiece ih =>
      simp only [Refuses]
      have herror := ih hpeek
      rw [readBody]
      split
      · next hc => cases hpeek.symm.trans hc
      · next c hc =>
          obtain rfl : _ = c := Option.some.inj (hpeek.symm.trans hc)
          simp [hends, herror]
  | rest hpeek hends hpiece hrest ih =>
      simp only [Refuses] at ih ⊢
      obtain ⟨hq, hok⟩ := Parsed.plain_eq_ok_iff.mp (hpiece.answers hpeek)
      rw [readBody]
      split
      · next hc => cases hpeek.symm.trans hc
      · next c hc =>
          obtain rfl : _ = c := Option.some.inj (hpeek.symm.trans hc)
          simp [hends, hok, hpiece.left_lt hpeek, ih]
  | opened hatom hopener hnode ih =>
      intro hpeek
      simp only [Refuses] at ih
      subst hopener
      rw [readPiece]
      simp [hatom, ih]
  | @marked cx p c f hatom htags hopener hmarkup ih =>
      intro hpeek
      have hne : cx.dialect.tagOpener ≠ cx.dialect.opener := cx.dialect.char_ne .tagOpener .opener
      subst hopener
      rw [readPiece]
      simpa [hatom, htags, hne, Refuses] using ih
  | head hhead =>
      simp only [Refuses]
      rw [readPlaceholder]
      split <;> simp_all
  | offset hhead hoffset =>
      simp only [Refuses]
      rw [readPlaceholder]
      split
      · next h => cases hhead.symm.trans h
      · next h => cases hhead.symm.trans h
      · next h => cases hhead.symm.trans h
      · next h =>
          cases hhead.symm.trans h
          split
          · next h =>
              cases hoffset.symm.trans h
              rfl
          · next h => cases hoffset.symm.trans h
  | format hhead hoffset hplain hformat =>
      simp only [Refuses]
      rw [← Parsed.plain_eq_error_iff, readPlaceholder_plain hhead hoffset hplain, readFormatted]
      split
      · next h =>
          cases hformat.symm.trans h
          rfl
      · next h => cases hformat.symm.trans h
  | formatCloser hhead hoffset hplain hformat hcloser =>
      simp only [Refuses]
      rw [← Parsed.plain_eq_error_iff, readPlaceholder_plain hhead hoffset hplain, readFormatted]
      split
      · next h => cases hformat.symm.trans h
      · next h =>
          cases hformat.symm.trans h
          split
          · next h =>
              cases hcloser.symm.trans h
              rfl
          · next h => cases hcloser.symm.trans h
  | placeholderTooDeep hhead hoffset hbranching henter =>
      simp only [Refuses]
      rw [← Parsed.plain_eq_error_iff]
      exact readPlaceholder_full hhead hoffset hbranching henter
  | submessages hhead hoffset hbranching henter hsubs ih =>
      simp only [Refuses] at ih ⊢
      rw [← Parsed.plain_eq_error_iff, readPlaceholder_entered hhead hoffset hbranching henter, ih]
      rfl
  | incomplete hhead hoffset hbranching henter hsubs hincomplete =>
      simp only [Refuses]
      have hanswer := hsubs.answers
      simp only [Answers] at hanswer
      rw [← Parsed.plain_eq_error_iff, readPlaceholder_entered hhead hoffset hbranching henter,
        hanswer]
      simp [hincomplete, Place.expected]
  | branchingCloser hhead hoffset hbranching henter hsubs hcomplete hcloser =>
      simp only [Refuses]
      have hanswer := hsubs.answers
      simp only [Answers] at hanswer
      rw [← Parsed.plain_eq_error_iff, readPlaceholder_entered hhead hoffset hbranching henter,
        hanswer]
      simp [hcomplete, hcloser]
  | selector hpeek hselector =>
      simp only [Refuses]
      rw [readSubmessages, if_neg hpeek]
      split
      · next h =>
          cases hselector.symm.trans h
          rfl
      · next h => cases hselector.symm.trans h
  | entryBody hpeek hselector hbody ih =>
      simp only [Refuses] at ih ⊢
      rw [readSubmessages, if_neg hpeek]
      split
      · next h => cases hselector.symm.trans h
      · next h =>
          cases hselector.symm.trans h
          simp only [ih]
  | entryCloser hpeek hselector hbody hcloser =>
      simp only [Refuses]
      obtain ⟨_, hok⟩ := Parsed.plain_eq_ok_iff.mp hbody.answers
      rw [readSubmessages, if_neg hpeek]
      split
      · next h => cases hselector.symm.trans h
      · next h =>
          cases hselector.symm.trans h
          simp [hok, hcloser, Place.expected]
  | laterEntry hpeek hselector hbody hcloser hsubs ih =>
      simp only [Refuses] at ih ⊢
      obtain ⟨_, hok⟩ := Parsed.plain_eq_ok_iff.mp hbody.answers
      rw [readSubmessages, if_neg hpeek]
      split
      · next h => cases hselector.symm.trans h
      · next h =>
          cases hselector.symm.trans h
          simp only [hok, hcloser, ih, if_true]
  | tagHead hhead =>
      simp only [Refuses]
      rw [readMarkup]
      split <;> simp_all
  | tagTooDeep hhead henter =>
      simp only [Refuses]
      exact readMarkup_full hhead henter
  | tagBody hhead henter hbody ih =>
      simp only [Refuses] at ih ⊢
      rw [← Parsed.plain_eq_error_iff, readMarkup_entered hhead henter, ih]
      rfl
  | tagUnclosed hhead henter hbody hopen =>
      simp only [Refuses]
      have hanswer := hbody.answers
      simp only [Answers] at hanswer
      rw [← Parsed.plain_eq_error_iff, readMarkup_entered hhead henter, hanswer]
      simp [hopen, Place.expected]

end Context

namespace Reader

/-- A text is refused with a failure exactly if the failure is derived. -/
theorem read_eq_failure_iff
    {r : Reader} {text : List Char} {f : Failure} :
    r.read text = .error (.failure f)
      ↔
    ¬ r.Refuses text ∧ Context.Fails r.context ⟨text, []⟩ .body f := by
  constructor
  · intro h
    have hsize : ¬ r.Refuses text := by
      intro hsize
      unfold Refuses at hsize
      rw [read, if_pos hsize] at h
      cases h
    rcases read_eq_error h with ⟨hrefuses, _⟩ | ⟨g, hfails, hg⟩
    · exact absurd hrefuses hsize
    · cases hg
      exact ⟨hsize, hfails⟩
  · rintro ⟨hsize, hfails⟩
    have hbody : Context.readBody r.context ⟨text, []⟩ = .error f := hfails.refuses
    simp only [context] at hbody
    unfold Refuses at hsize
    unfold read
    rw [if_neg hsize]
    simp [Dialect.read, hbody]

end Reader

end MessageFormat
