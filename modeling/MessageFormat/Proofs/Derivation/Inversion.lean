import MessageFormat.Proofs.Derivation

/-!
# Inversion of derivations

What a derivation must look like, given the first character or what the header was read as. Each
lemma names the one rule that applies, so later proofs do not go through the other rules again.
-/

namespace MessageFormat

namespace Context

variable {cx : Context} {p q : Place}

/-- A body that does not end here starts with a piece. -/
theorem Reads.of_body
    {c : Char} {body : Body}
    (h : Reads cx p (.body body) q) (hpeek : p.peek = some c) (hends : cx.endsBody c = false) :
    (∃ name, Reads cx p (.piece c (.closingTag name)) q ∧ body = ⟨[], true⟩) ∨
      ∃ node r rest,
        Reads cx p (.piece c (.node node)) r ∧ Reads cx r (.body rest) q ∧
          body = rest.before node := by
  cases h with
  | bodyAtEnd hnone =>
      rw [hpeek] at hnone
      cases hnone
  | @bodyEnded _ _ c' hpeek' hends' =>
      obtain rfl : c = c' := Option.some.inj (hpeek.symm.trans hpeek')
      simp [hends] at hends'
  | @bodyClosed _ _ _ c' name hpeek' hends' hpiece =>
      obtain rfl : c = c' := Option.some.inj (hpeek.symm.trans hpeek')
      exact Or.inl ⟨name, hpiece, rfl⟩
  | @bodyNode _ _ r _ c' node rest hpeek' hends' hpiece hbody =>
      obtain rfl : c = c' := Option.some.inj (hpeek.symm.trans hpeek')
      exact Or.inr ⟨node, r, rest, hpiece, hbody, rfl⟩

/-- At an opener, a placeholder is read. -/
theorem Reads.of_opener
    {piece : Piece}
    (h : Reads cx p (.piece cx.dialect.opener piece) q) :
    ∃ node, piece = .node node ∧ Reads cx p.advance (.placeholder node) q := by
  cases h with
  | atom hatom =>
      rw [cx.atom?_opener] at hatom
      cases hatom
  | @opened _ _ _ _ node hatom hopener hnode =>
      exact ⟨node, rfl, hnode⟩
  | marked hatom htags hopener hmarkup =>
      exact absurd hopener (cx.dialect.char_ne .opener .tagOpener)
  | text hraw =>
      exact absurd rfl ((cx.stops_mode_eq_false_iff _).mp hraw).2.1

/-- At a tag opener, markup is read if tags are allowed and no blank follows. -/
theorem Reads.of_tagOpener
    {piece : Piece}
    (h : Reads cx p (.piece cx.dialect.tagOpener piece) q)
    (htags : cx.dialect.tagsAllowed = true) (hnext : p.advance.peek.any isBlank = false) :
    Reads cx p (.markup piece) q := by
  cases h with
  | atom hatom =>
      rw [atom?_tagOpener hnext] at hatom
      cases hatom
  | opened hatom hopener hnode =>
      exact absurd hopener (cx.dialect.char_ne .tagOpener .opener)
  | marked hatom htags hopener hmarkup =>
      exact hmarkup
  | text hraw =>
      exact absurd rfl (((cx.stops_mode_eq_false_iff _).mp hraw).2.2.1 htags)

/-- After the header of a branching type, sub-messages are read. -/
theorem Reads.of_branching
    {node : Node} {id type : String} {r : Place}
    (h : Reads cx p (.placeholder node) q)
    (hhead : cx.dialect.readHead p = .ok (.formatted id type, r))
    (hbranching : cx.dialect.isBranching type = true) :
    ∃ offset inner s t subs,
      cx.dialect.readOffsetClause type r cx.seam = .ok (offset, s) ∧
        cx.enter? (.placeholder id type) = some inner ∧
        Reads inner s (.submessages subs) t ∧
        cx.dialect.readCloser t = .ok q ∧
        node = .placeholder id (some type) (offset.map .offset) (some subs) := by
  cases h with
  | bare hhead' => cases hhead.symm.trans hhead'
  | typed hhead' => cases hhead.symm.trans hhead'
  | formatted hhead' hoffset hplain hformat hcloser =>
      cases hhead.symm.trans hhead'
      simp [hbranching] at hplain
  | @branching _ inner _ _ s t _ _ _ offset subs hhead' hoffset hbranching' henter hsubs hcomplete
      hcloser =>
      cases hhead.symm.trans hhead'
      exact ⟨offset, inner, s, t, subs, hoffset, henter, hsubs, hcloser, rfl⟩

/-- After the start of a tag that has content, its body is read up to its closing tag. -/
theorem Reads.of_tag
    {piece : Piece} {name : String} {r : Place}
    (h : Reads cx p (.markup piece) q)
    (hhead : cx.dialect.readTagHead cx.enclosing p = .ok (.opening name, r)) :
    ∃ inner body,
      cx.enter? (.tag name) = some inner ∧
        Reads inner r (.body body) q ∧
        piece = .node (.tag name (if body.nodes.isEmpty then none else some body.nodes)) := by
  cases h with
  | keptMarkup hhead' => cases hhead.symm.trans hhead'
  | closingTag hhead' => cases hhead.symm.trans hhead'
  | emptyTag hhead' => cases hhead.symm.trans hhead'
  | @tag _ inner _ _ _ _ body hhead' henter hbody hclosed =>
      cases hhead.symm.trans hhead'
      exact ⟨inner, body, henter, hbody, rfl⟩

/-- Sub-messages end at the closer of their placeholder. -/
theorem Reads.of_closer
    {subs : Submessages}
    (h : Reads cx p (.submessages subs) q) (hpeek : p.peek = some cx.dialect.closer) :
    subs = [] ∧ q = p := by
  cases h with
  | entriesEnded _ => exact ⟨rfl, rfl⟩
  | entry hmore hselector hbody hcloser hsubs => exact absurd (Or.inr hpeek) hmore

/-- Sub-messages that do not end here start with a selector. -/
theorem Reads.of_entry
    {subs : Submessages}
    (h : Reads cx p (.submessages subs) q)
    (hpeek : ¬(p.peek = none ∨ p.peek = some cx.dialect.closer)) :
    ∃ selector s r body rest,
      cx.dialect.readSelector p = .ok (selector, s) ∧
        Reads cx s (.body body) r ∧
        Reads cx r.advance.skip (.submessages rest) q ∧
        subs = rest.before selector body.nodes := by
  cases h with
  | entriesEnded hend => exact absurd hend hpeek
  | @entry _ _ s r _ selector body rest hmore hselector hbody hcloser hsubs =>
      exact ⟨selector, s, r, body, rest, hselector, hbody, hsubs, rfl⟩

end Context

end MessageFormat
