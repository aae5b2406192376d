import MessageFormat.Message.Grammar

/-!
# Derivations

The rules of the grammar as a relation: what is read from a place, and where reading ends
(`Reads`). A second relation says how reading fails (`Fails`). Both follow the rules one case at a
time, so a property of all readings is proved by induction over them, without unfolding the rules
again.

The test for lack of progress has no case in the relations, because a piece always takes at least
one character (`Reads.left_lt`): text is read exactly where no other rule applies.
-/

namespace MessageFormat

/-- What is read by one of the rules. -/
inductive Reading where
  | body (body : Body)
  | piece (first : Char) (piece : Piece)
  | placeholder (node : Node)
  | submessages (subs : Submessages)
  | markup (piece : Piece)

/-- The rule by which reading fails. -/
inductive Rule where
  | body
  | piece (first : Char)
  | placeholder
  | submessages
  | markup

namespace Context

/-- Something is read from one place up to another. A placeholder is read from behind its opener,
markup from its tag opener on. -/
inductive Reads : Context → Place → Reading → Place → Prop
  | bodyAtEnd
      {cx : Context} {p : Place}
      (hpeek : p.peek = none) :
      Reads cx p (.body ⟨[], false⟩) p
  | bodyEnded
      {cx : Context} {p : Place} {c : Char}
      (hpeek : p.peek = some c)
      (hends : cx.endsBody c = true) :
      Reads cx p (.body ⟨[], false⟩) p
  | bodyClosed
      {cx : Context} {p q : Place} {c : Char} {name : String}
      (hpeek : p.peek = some c)
      (hends : cx.endsBody c = false)
      (hpiece : Reads cx p (.piece c (.closingTag name)) q) :
      Reads cx p (.body ⟨[], true⟩) q
  | bodyNode
      {cx : Context} {p q r : Place} {c : Char} {node : Node} {body : Body}
      (hpeek : p.peek = some c)
      (hends : cx.endsBody c = false)
      (hpiece : Reads cx p (.piece c (.node node)) q)
      (hbody : Reads cx q (.body body) r) :
      Reads cx p (.body (body.before node)) r
  | atom
      {cx : Context} {p : Place} {c : Char} {node : Node}
      (hatom : cx.atom? c p.advance.peek = some node) :
      Reads cx p (.piece c (.node node)) p.advance
  | opened
      {cx : Context} {p q : Place} {c : Char} {node : Node}
      (hatom : cx.atom? c p.advance.peek = none)
      (hopener : c = cx.dialect.opener)
      (hnode : Reads cx p.advance (.placeholder node) q) :
      Reads cx p (.piece c (.node node)) q
  | marked
      {cx : Context} {p q : Place} {c : Char} {piece : Piece}
      (hatom : cx.atom? c p.advance.peek = none)
      (htags : cx.dialect.tagsAllowed = true)
      (hopener : c = cx.dialect.tagOpener)
      (hmarkup : Reads cx p (.markup piece) q) :
      Reads cx p (.piece c piece) q
  | text
      {cx : Context} {p : Place} {c : Char}
      (hraw : cx.dialect.stops cx.mode c = false) :
      Reads cx p (.piece c (.node (.text (p.scan cx.dialect cx.mode).1)))
        (p.scan cx.dialect cx.mode).2
  | bare
      {cx : Context} {p q : Place} {id : String}
      (hhead : cx.dialect.readHead p = .ok (.bare id, q)) :
      Reads cx p (.placeholder (.placeholder id none none none)) q
  | typed
      {cx : Context} {p q : Place} {id type : String}
      (hhead : cx.dialect.readHead p = .ok (.typed id type, q)) :
      Reads cx p (.placeholder (.placeholder id (some type) none none)) q
  | formatted
      {cx : Context} {p q r s t : Place} {id type format : String} {offset : Option Int}
      (hhead : cx.dialect.readHead p = .ok (.formatted id type, q))
      (hoffset : cx.dialect.readOffsetClause type q cx.seam = .ok (offset, r))
      (hplain : cx.dialect.isBranching type = false)
      (hformat : cx.dialect.readFormat r = .ok (format, s))
      (hcloser : cx.dialect.readCloser s = .ok t) :
      Reads cx p (.placeholder (.placeholder id (some type) (some (.text format)) none)) t
  | branching
      {cx inner : Context} {p q r s t : Place} {id type : String} {offset : Option Int}
      {subs : Submessages}
      (hhead : cx.dialect.readHead p = .ok (.formatted id type, q))
      (hoffset : cx.dialect.readOffsetClause type q cx.seam = .ok (offset, r))
      (hbranching : cx.dialect.isBranching type = true)
      (henter : cx.enter? (.placeholder id type) = some inner)
      (hsubs : Reads inner r (.submessages subs) s)
      (hcomplete : subs.isComplete requiredSelector = true)
      (hcloser : cx.dialect.readCloser s = .ok t) :
      Reads cx p
        (.placeholder (.placeholder id (some type) (offset.map .offset) (some subs))) t
  | entriesEnded
      {cx : Context} {p : Place}
      (hpeek : p.peek = none ∨ p.peek = some cx.dialect.closer) :
      Reads cx p (.submessages []) p
  | entry
      {cx : Context} {p q r t : Place} {selector : String} {body : Body} {subs : Submessages}
      (hpeek : ¬(p.peek = none ∨ p.peek = some cx.dialect.closer))
      (hselector : cx.dialect.readSelector p = .ok (selector, q))
      (hbody : Reads cx q (.body body) r)
      (hcloser : r.peek = some cx.dialect.closer)
      (hsubs : Reads cx r.advance.skip (.submessages subs) t) :
      Reads cx p (.submessages (subs.before selector body.nodes)) t
  | keptMarkup
      {cx : Context} {p q : Place}
      (hhead : cx.dialect.readTagHead cx.enclosing p = .ok (.text, q)) :
      Reads cx p (.markup (.node (.text (p.upTo q cx.seam)))) q
  | closingTag
      {cx : Context} {p q : Place} {name : String}
      (hhead : cx.dialect.readTagHead cx.enclosing p = .ok (.closing name, q)) :
      Reads cx p (.markup (.closingTag name)) q
  | emptyTag
      {cx : Context} {p q : Place} {name : String}
      (hhead : cx.dialect.readTagHead cx.enclosing p = .ok (.empty name, q)) :
      Reads cx p (.markup (.node (.tag name none))) q
  | tag
      {cx inner : Context} {p q r : Place} {name : String} {body : Body}
      (hhead : cx.dialect.readTagHead cx.enclosing p = .ok (.opening name, q))
      (henter : cx.enter? (.tag name) = some inner)
      (hbody : Reads inner q (.body body) r)
      (hclosed : body.closed = true) :
      Reads cx p
        (.markup (.node (.tag name (if body.nodes.isEmpty then none else some body.nodes)))) r

/-- Reading by a rule fails. -/
inductive Fails : Context → Place → Rule → Failure → Prop
  | piece
      {cx : Context} {p : Place} {c : Char} {f : Failure}
      (hpeek : p.peek = some c)
      (hends : cx.endsBody c = false)
      (hpiece : Fails cx p (.piece c) f) :
      Fails cx p .body f
  | rest
      {cx : Context} {p q : Place} {c : Char} {node : Node} {f : Failure}
      (hpeek : p.peek = some c)
      (hends : cx.endsBody c = false)
      (hpiece : Reads cx p (.piece c (.node node)) q)
      (hrest : Fails cx q .body f) :
      Fails cx p .body f
  | opened
      {cx : Context} {p : Place} {c : Char} {f : Failure}
      (hatom : cx.atom? c p.advance.peek = none)
      (hopener : c = cx.dialect.opener)
      (hnode : Fails cx p.advance .placeholder f) :
      Fails cx p (.piece c) f
  | marked
      {cx : Context} {p : Place} {c : Char} {f : Failure}
      (hatom : cx.atom? c p.advance.peek = none)
      (htags : cx.dialect.tagsAllowed = true)
      (hopener : c = cx.dialect.tagOpener)
      (hmarkup : Fails cx p .markup f) :
      Fails cx p (.piece c) f
  | head
      {cx : Context} {p : Place} {f : Failure}
      (hhead : cx.dialect.readHead p = .error f) :
      Fails cx p .placeholder f
  | offset
      {cx : Context} {p q : Place} {id type : String} {f : Failure}
      (hhead : cx.dialect.readHead p = .ok (.formatted id type, q))
      (hoffset : cx.dialect.readOffsetClause type q cx.seam = .error f) :
      Fails cx p .placeholder f
  | format
      {cx : Context} {p q r : Place} {id type : String} {offset : Option Int} {f : Failure}
      (hhead : cx.dialect.readHead p = .ok (.formatted id type, q))
      (hoffset : cx.dialect.readOffsetClause type q cx.seam = .ok (offset, r))
      (hplain : cx.dialect.isBranching type = false)
      (hformat : cx.dialect.readFormat r = .error f) :
      Fails cx p .placeholder f
  | formatCloser
      {cx : Context} {p q r s : Place} {id type format : String} {offset : Option Int}
      {f : Failure}
      (hhead : cx.dialect.readHead p = .ok (.formatted id type, q))
      (hoffset : cx.dialect.readOffsetClause type q cx.seam = .ok (offset, r))
      (hplain : cx.dialect.isBranching type = false)
      (hformat : cx.dialect.readFormat r = .ok (format, s))
      (hcloser : cx.dialect.readCloser s = .error f) :
      Fails cx p .placeholder f
  | placeholderTooDeep
      {cx : Context} {p q r : Place} {id type : String} {offset : Option Int}
      (hhead : cx.dialect.readHead p = .ok (.formatted id type, q))
      (hoffset : cx.dialect.readOffsetClause type q cx.seam = .ok (offset, r))
      (hbranching : cx.dialect.isBranching type = true)
      (henter : cx.enter? (.placeholder id type) = none) :
      Fails cx p .placeholder ⟨.tooDeep cx.limit, r⟩
  | submessages
      {cx inner : Context} {p q r : Place} {id type : String} {offset : Option Int}
      {f : Failure}
      (hhead : cx.dialect.readHead p = .ok (.formatted id type, q))
      (hoffset : cx.dialect.readOffsetClause type q cx.seam = .ok (offset, r))
      (hbranching : cx.dialect.isBranching type = true)
      (henter : cx.enter? (.placeholder id type) = some inner)
      (hsubs : Fails inner r .submessages f) :
      Fails cx p .placeholder f
  | incomplete
      {cx inner : Context} {p q r s : Place} {id type : String} {offset : Option Int}
      {subs : Submessages}
      (hhead : cx.dialect.readHead p = .ok (.formatted id type, q))
      (hoffset : cx.dialect.readOffsetClause type q cx.seam = .ok (offset, r))
      (hbranching : cx.dialect.isBranching type = true)
      (henter : cx.enter? (.placeholder id type) = some inner)
      (hsubs : Reads inner r (.submessages subs) s)
      (hincomplete : subs.isComplete requiredSelector = false) :
      Fails cx p .placeholder ⟨.expected .requiredSubmessage, s⟩
  | branchingCloser
      {cx inner : Context} {p q r s : Place} {id type : String} {offset : Option Int}
      {subs : Submessages} {f : Failure}
      (hhead : cx.dialect.readHead p = .ok (.formatted id type, q))
      (hoffset : cx.dialect.readOffsetClause type q cx.seam = .ok (offset, r))
      (hbranching : cx.dialect.isBranching type = true)
      (henter : cx.enter? (.placeholder id type) = some inner)
      (hsubs : Reads inner r (.submessages subs) s)
      (hcomplete : subs.isComplete requiredSelector = true)
      (hcloser : cx.dialect.readCloser s = .error f) :
      Fails cx p .placeholder f
  | selector
      {cx : Context} {p : Place} {f : Failure}
      (hpeek : ¬(p.peek = none ∨ p.peek = some cx.dialect.closer))
      (hselector : cx.dialect.readSelector p = .error f) :
      Fails cx p .submessages f
  | entryBody
      {cx : Context} {p q : Place} {selector : String} {f : Failure}
      (hpeek : ¬(p.peek = none ∨ p.peek = some cx.dialect.closer))
      (hselector : cx.dialect.readSelector p = .ok (selector, q))
      (hbody : Fails cx q .body f) :
      Fails cx p .submessages f
  | entryCloser
      {cx : Context} {p q r : Place} {selector : String} {body : Body}
      (hpeek : ¬(p.peek = none ∨ p.peek = some cx.dialect.closer))
      (hselector : cx.dialect.readSelector p = .ok (selector, q))
      (hbody : Reads cx q (.body body) r)
      (hcloser : r.peek ≠ some cx.dialect.closer) :
      Fails cx p .submessages ⟨.expected (.char cx.dialect.closer), r⟩
  | laterEntry
      {cx : Context} {p q r : Place} {selector : String} {body : Body} {f : Failure}
      (hpeek : ¬(p.peek = none ∨ p.peek = some cx.dialect.closer))
      (hselector : cx.dialect.readSelector p = .ok (selector, q))
      (hbody : Reads cx q (.body body) r)
      (hcloser : r.peek = some cx.dialect.closer)
      (hsubs : Fails cx r.advance.skip .submessages f) :
      Fails cx p .submessages f
  | tagHead
      {cx : Context} {p : Place} {f : Failure}
      (hhead : cx.dialect.readTagHead cx.enclosing p = .error f) :
      Fails cx p .markup f
  | tagTooDeep
      {cx : Context} {p q : Place} {name : String}
      (hhead : cx.dialect.readTagHead cx.enclosing p = .ok (.opening name, q))
      (henter : cx.enter? (.tag name) = none) :
      Fails cx p .markup ⟨.tooDeep cx.limit, q⟩
  | tagBody
      {cx inner : Context} {p q : Place} {name : String} {f : Failure}
      (hhead : cx.dialect.readTagHead cx.enclosing p = .ok (.opening name, q))
      (henter : cx.enter? (.tag name) = some inner)
      (hbody : Fails inner q .body f) :
      Fails cx p .markup f
  | tagUnclosed
      {cx inner : Context} {p q r : Place} {name : String} {body : Body}
      (hhead : cx.dialect.readTagHead cx.enclosing p = .ok (.opening name, q))
      (henter : cx.enter? (.tag name) = some inner)
      (hbody : Reads inner q (.body body) r)
      (hopen : body.closed = false) :
      Fails cx p .markup ⟨.expected .closingTag, r⟩

/-- Text is read exactly where no other rule applies: the characters that stop it are those by
which the other pieces and the end of a body are told. -/
theorem stops_mode_eq_false_iff
    (cx : Context) (c : Char) :
    cx.dialect.stops cx.mode c = false
      ↔
    c ≠ cx.dialect.closer ∧
      c ≠ cx.dialect.opener ∧
      (cx.dialect.tagsAllowed = true → c ≠ cx.dialect.tagOpener) ∧
      (c = cx.dialect.reference → cx.referent = none) := by
  cases href : cx.referent with
  | none =>
      simp only [Dialect.stops, Dialect.isMark, mode, href, Mode.body]
      grind
  | some id =>
      simp only [Dialect.stops, Dialect.isMark, mode, href, Mode.numericBody]
      grind

theorem atom?_eq_none_iff
    (cx : Context) (c : Char) (next : Option Char) :
    cx.atom? c next = none
      ↔
    c ≠ cx.dialect.closer ∧
      (c = cx.dialect.reference → cx.referent = none) ∧
      (cx.dialect.tagsAllowed = true → c = cx.dialect.tagOpener → next.any isBlank = false) := by
  have hne : cx.dialect.reference ≠ cx.dialect.tagOpener := cx.dialect.char_ne .reference .tagOpener
  by_cases hcloser : c = cx.dialect.closer
  · simp [atom?, hcloser]
  · by_cases href : c = cx.dialect.reference
    · simp [atom?, href ▸ hcloser, href, hne]
    · simp [atom?, hcloser, href]

/-- An opener is more than a node by itself. -/
theorem atom?_opener
    (cx : Context) (next : Option Char) :
    cx.atom? cx.dialect.opener next = none := by
  rw [atom?_eq_none_iff]
  refine ⟨cx.dialect.char_ne .opener .closer, ?_, ?_⟩
  · intro h
    exact absurd h (cx.dialect.char_ne .opener .reference)
  · intro _ h
    exact absurd h (cx.dialect.char_ne .opener .tagOpener)

/-- A tag opener that is not followed by a blank is more than a node by itself. -/
theorem atom?_tagOpener
    {cx : Context} {next : Option Char} (h : next.any isBlank = false) :
    cx.atom? cx.dialect.tagOpener next = none := by
  rw [atom?_eq_none_iff]
  refine ⟨cx.dialect.char_ne .tagOpener .closer, ?_, fun _ _ => h⟩
  intro href
  exact absurd href (cx.dialect.char_ne .tagOpener .reference)

theorem enter?_eq_some
    {cx inner : Context} {enclosing : Enclosing}
    (h : cx.enter? enclosing = some inner) :
    cx.depth < cx.limit ∧
      inner = { cx with depth := cx.depth + 1, enclosing := enclosing } := by
  unfold enter? isFull at h
  split at h
  · cases h
  · next hfull =>
      refine ⟨?_, ?_⟩
      · simpa using hfull
      · simpa using h.symm

theorem enter?_of_lt
    {cx : Context} (h : cx.depth < cx.limit) (enclosing : Enclosing) :
    cx.enter? enclosing = some { cx with depth := cx.depth + 1, enclosing := enclosing } := by
  have hfull : cx.isFull = false := by
    simp [isFull, h]
  simp [enter?, hfull]

/-- Where reading is at the end: a piece and markup take at least one character. -/
theorem Reads.follows
    {cx : Context} {p q : Place} {x : Reading}
    (h : Reads cx p x q) :
    match x with
    | .piece first _ => p.peek = some first → q.Follows p.advance
    | .markup _ => q.Follows p.advance
    | _ => q.Follows p := by
  induction h with
  | @bodyAtEnd cx p hpeek => exact Place.Follows.refl p
  | @bodyEnded cx p c hpeek hends => exact Place.Follows.refl p
  | @bodyClosed cx p q c name hpeek hends hpiece ih =>
      exact (ih hpeek).trans p.advance_follows
  | @bodyNode cx p q r c node body hpeek hends hpiece hbody ihpiece ihbody =>
      exact ihbody.trans ((ihpiece hpeek).trans p.advance_follows)
  | @atom cx p c node hatom => exact fun _ => Place.Follows.refl p.advance
  | opened hatom hopener hnode ih => exact fun _ => ih
  | marked hatom htags hopener hmarkup ih => exact fun _ => ih
  | text hraw => exact fun hpeek => Place.scan_follows_advance hpeek hraw
  | bare hhead => exact Dialect.readHead_follows hhead
  | typed hhead => exact Dialect.readHead_follows hhead
  | formatted hhead hoffset hplain hformat hcloser =>
      exact (Dialect.readCloser_follows hcloser).trans
        ((Dialect.readFormat_follows hformat).trans
          ((Dialect.readOffsetClause_follows hoffset).trans (Dialect.readHead_follows hhead)))
  | branching hhead hoffset hbranching henter hsubs hcomplete hcloser ih =>
      exact (Dialect.readCloser_follows hcloser).trans
        (ih.trans
          ((Dialect.readOffsetClause_follows hoffset).trans (Dialect.readHead_follows hhead)))
  | @entriesEnded cx p hpeek => exact Place.Follows.refl p
  | @entry cx p q r t selector body subs hpeek hselector hbody hcloser hsubs ihbody ihsubs =>
      have hr : r.Follows p := ihbody.trans (Dialect.readSelector_follows hselector)
      exact ihsubs.trans ((r.advance.skip_follows.trans r.advance_follows).trans hr)
  | keptMarkup hhead => exact Dialect.readTagHead_follows hhead
  | closingTag hhead => exact Dialect.readTagHead_follows hhead
  | emptyTag hhead => exact Dialect.readTagHead_follows hhead
  | tag hhead henter hbody hclosed ih => exact ih.trans (Dialect.readTagHead_follows hhead)

theorem Reads.left_lt
    {cx : Context} {p q : Place} {c : Char} {piece : Piece}
    (h : Reads cx p (.piece c piece) q) (hpeek : p.peek = some c) :
    q.left < p.left :=
  Nat.lt_of_le_of_lt (h.follows hpeek).left_le (Place.advance_left_lt hpeek)

end Context

end MessageFormat
