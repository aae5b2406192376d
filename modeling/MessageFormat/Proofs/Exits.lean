import MessageFormat.Message.Fragment
import MessageFormat.Proofs.Derivation.Agreement
import MessageFormat.Proofs.Derivation.Headers
import Mathlib.Control.Monad.Basic

/-!
# Where reading stops

From every place, each rule of the grammar reads something or fails (`Rule.ends`), and what it reads
ends at or behind the place where it began. Text is empty exactly if nothing was read
(`scan_eq_nil_iff`); a placeholder, a reference and markup take at least one character.

Where a rule stops is known from the text alone (`Reads.exits`): sub-messages stop at the end of the
text or at a closer, a body stops behind the closing tag of its tag, at the end of the text, or at a
closer that something encloses it for. A message is enclosed by nothing, so it is read to the end.
-/

namespace MessageFormat

/-- The rule by which something is read. -/
def Reading.rule : Reading → Rule
  | .body _ => .body
  | .piece first _ => .piece first
  | .placeholder _ => .placeholder
  | .submessages _ => .submessages
  | .markup _ => .markup

namespace Dialect

variable {d : Dialect} {m : Mode} {c : Char} {text : List Char}

/-- A character that does not end a text gives it a meaning. -/
theorem scan_cons_ne_nil
    (hc : d.stops m c = false) :
    (d.scan m (c :: text)).1 ≠ [] := by
  unfold scan
  by_cases hquote : c = d.quote
  · subst hquote
    cases text with
    | nil =>
        rw [scanFrom_lone hc (by simp)]
        simp [withChar]
    | cons next rest =>
        by_cases hnext : next = d.quote
        · subst hnext
          rw [scanFrom_pair hc]
          simp [withChar]
        · cases hopens : d.opensRun m next with
          | true =>
              rw [scanFrom_open hc hnext hopens]
              simp [withChar]
          | false =>
              rw [scanFrom_lone hc (by simp [hnext, hopens])]
              simp [withChar]
  · rw [scanFrom_raw hc hquote]
    simp [withChar]

/-- A text means nothing exactly if none of it is read. -/
theorem scan_eq_nil_iff
    (d : Dialect) (m : Mode) (text : List Char) :
    (d.scan m text).1 = [] ↔ (d.scan m text).2 = text := by
  cases text with
  | nil =>
      simp [scan]
  | cons c text =>
      cases hc : d.stops m c with
      | true =>
          simp [scan, scanFrom_stop hc]
      | false =>
          have hshorter : (d.scan m (c :: text)).2.length ≤ text.length :=
            (scan_suffix_tail hc).length_le
          constructor
          · intro hempty
            exact absurd hempty (scan_cons_ne_nil hc)
          · intro hsame
            rw [hsame, List.length_cons] at hshorter
            omega

end Dialect

/-- A place lies directly behind this character, which was read from another place on. -/
def Place.Behind (q p : Place) (c : Char) : Prop :=
  ∃ before, p.rest = before ++ c :: q.rest

theorem Place.Behind.of_follows
    {p q r : Place} {c : Char} (h : r.Behind q c) (hq : q.Follows p) :
    r.Behind p c := by
  obtain ⟨before, hbefore⟩ := h
  obtain ⟨start, hstart⟩ := hq
  exact ⟨start ++ before, by rw [← hstart, hbefore, List.append_assoc]⟩

theorem Place.behind_advance
    {p : Place} {c : Char} (h : p.peek = some c) :
    p.advance.Behind p c := by
  cases hp : p.rest with
  | nil =>
      simp [peek, hp] at h
  | cons x rest =>
      obtain rfl : x = c := by
        simpa [peek, hp] using h
      exact ⟨[], by simp [advance, hp]⟩

namespace Dialect

theorem readClosingTag_closing
    {d : Dialect} {opened name : String} {start p q : Place}
    (h : d.readClosingTag opened start p = .ok (.closing name, q)) :
    name = opened ∧ q.Behind p d.tagCloser := by
  obtain ⟨-, hname, r, hscan, hcloser, rfl⟩ := readClosingTag_closing_iff.mp h
  have hr : r.Follows p.skip := by
    simpa [hscan] using p.skip.scan_follows d .tagName
  exact ⟨hname, (Place.behind_advance hcloser).of_follows
    (r.skip_follows.trans (hr.trans p.skip_follows))⟩

/-- A closing tag closes the tag that is open, and ends with the tag closer. -/
theorem readTagHead_closing
    {d : Dialect} {enclosing : Enclosing} {p q : Place} {name : String}
    (h : d.readTagHead enclosing p = .ok (.closing name, q)) :
    enclosing = .tag name ∧ q.Behind p d.tagCloser := by
  obtain ⟨-, opened, rfl, hclosing⟩ := readTagHead_closing_iff.mp h
  obtain ⟨rfl, hbehind⟩ := readClosingTag_closing hclosing
  exact ⟨rfl, hbehind.of_follows (p.advance.advance_follows.trans p.advance_follows)⟩

end Dialect

namespace Context

/-- A body ended with the closing tag of the tag that encloses it. -/
def ClosedBehind (cx : Context) (p q : Place) : Prop :=
  (∃ name, cx.enclosing = .tag name) ∧ q.Behind p cx.dialect.tagCloser

/-- How reading from one place stops at another. -/
def Reading.Exits (cx : Context) (p q : Place) : Reading → Prop
  | .body ⟨_, true⟩ => cx.ClosedBehind p q
  | .body ⟨_, false⟩ =>
      q.peek = none ∨ (cx.enclosing ≠ .nothing ∧ q.peek = some cx.dialect.closer)
  | .submessages _ => q.peek = none ∨ q.peek = some cx.dialect.closer
  | .piece _ (.closingTag _) | .markup (.closingTag _) => cx.ClosedBehind p q
  | .piece _ (.node _) | .placeholder _ | .markup (.node _) => True

theorem Reads.exits
    {cx : Context} {p q : Place} {x : Reading}
    (h : Reads cx p x q) :
    Reading.Exits cx p q x := by
  induction h with
  | bodyAtEnd hpeek => exact Or.inl hpeek
  | @bodyEnded cx p c hpeek hends =>
      simp only [endsBody, Bool.and_eq_true, beq_iff_eq, bne_iff_ne] at hends
      exact Or.inr ⟨hends.2, hends.1 ▸ hpeek⟩
  | bodyClosed hpeek hends hpiece ih => exact ih
  | @bodyNode cx p q r c node body hpeek hends hpiece hbody ihpiece ihbody =>
      have hq : q.Follows p := (hpiece.follows hpeek).trans p.advance_follows
      obtain ⟨nodes, closed⟩ := body
      cases closed with
      | true => exact ⟨ihbody.1, ihbody.2.of_follows hq⟩
      | false => exact ihbody
  | atom hatom => trivial
  | opened hatom hopener hnode ih => trivial
  | @marked cx p q c piece hatom htags hopener hmarkup ih =>
      cases piece with
      | node node => trivial
      | closingTag name => exact ih
  | text hraw => trivial
  | bare hhead => trivial
  | typed hhead => trivial
  | formatted hhead hoffset hplain hformat hcloser => trivial
  | branching hhead hoffset hbranching henter hsubs hcomplete hcloser ih => trivial
  | entriesEnded hpeek => exact hpeek
  | entry hpeek hselector hbody hcloser hsubs ihbody ihsubs => exact ihsubs
  | keptMarkup hhead => trivial
  | closingTag hhead =>
      obtain ⟨henclosing, hbehind⟩ := Dialect.readTagHead_closing hhead
      exact ⟨⟨_, henclosing⟩, hbehind⟩
  | emptyTag hhead => trivial
  | tag hhead henter hbody hclosed ih => trivial

/-- From every place, each rule reads something or fails. A piece is read by its first character. -/
theorem Rule.ends
    (cx : Context) (p : Place) (rule : Rule)
    (hrule : ∀ first, rule = .piece first → p.peek = some first) :
    (∃ x q, x.rule = rule ∧ Reads cx p x q) ∨ ∃ f, Fails cx p rule f := by
  have hended {α : Type} {answer : Parsed α p.left} {reading : α → Reading}
      (hreading : ∀ a, (reading a).rule = rule)
      (h : answer.Explained (fun a => Reads cx p (reading a)) (Fails cx p rule)) :
      (∃ x q, x.rule = rule ∧ Reads cx p x q) ∨ ∃ f, Fails cx p rule f := by
    cases answer with
    | error f => exact Or.inr ⟨f, h⟩
    | ok r => exact Or.inl ⟨reading r.val.1, r.val.2, hreading _, h⟩
  cases rule with
  | body => exact hended (fun _ => rfl) (readBody_explained cx p)
  | piece first => exact hended (fun _ => rfl) (readPiece_explained cx p first (hrule first rfl))
  | placeholder => exact hended (fun _ => rfl) (readPlaceholder_explained cx p)
  | submessages => exact hended (fun _ => rfl) (readSubmessages_explained cx p)
  | markup => exact hended (fun _ => rfl) (readMarkup_explained cx p)

end Context

namespace Cursor

/-- A place is at a cursor: the cursor lies in its text, and what follows it is left at the
place. -/
structure At (c : Cursor) (p : Place) : Prop where
  start_le : 0 ≤ c.pos
  le_stop : c.pos ≤ c.length
  rest_eq : p.rest = c.source.toList.drop c.pos.toNat

variable {c : Cursor} {p q : Place}

theorem At.left_eq
    (h : c.At p) :
    (p.left : Int) = c.length - c.pos := by
  have hstart := h.start_le
  have hstop := h.le_stop
  unfold length at *
  rw [Place.left, h.rest_eq, List.length_drop]
  omega

theorem At.peek_eq
    (h : c.At p) :
    p.peek = c.source.toList[c.pos.toNat]? := by
  rw [Place.peek, h.rest_eq, List.head?_drop]

theorem At.eof_iff
    (h : c.At p) :
    p.peek = none ↔ c.pos = c.length := by
  have hstart := h.start_le
  have hstop := h.le_stop
  rw [h.peek_eq, List.getElem?_eq_none_iff]
  unfold length at *
  omega

theorem At.charAt_eq
    {char : Char} (h : c.At p) (hpeek : p.peek = some char) :
    c.charAt c.pos = .ok char := by
  have hstart := h.start_le
  rw [h.peek_eq] at hpeek
  simp only [charAt]
  rw [if_neg (by omega), hpeek]

/-- A later place is at the cursor that has moved by the characters read since. -/
theorem At.of_follows
    (h : c.At p) (hq : q.Follows p) :
    At { c with pos := c.pos + ((p.left : Int) - q.left) } q := by
  have hle := hq.left_le
  have hleft := h.left_eq
  have hstart := h.start_le
  obtain ⟨before, hbefore⟩ := hq
  have hlength : before.length = p.left - q.left := by
    rw [Place.left, Place.left, ← hbefore, List.length_append]
    omega
  refine ⟨by dsimp only; omega, by simp only [length] at *; omega, ?_⟩
  have hpos : (c.pos + ((p.left : Int) - q.left)).toNat = c.pos.toNat + before.length := by
    omega
  dsimp only
  rw [hpos, ← List.drop_drop, ← h.rest_eq, ← hbefore, List.drop_left]

/-- The character that a later place lies behind is the one before its cursor. -/
theorem At.charBefore_eq
    {d : Cursor} {char : Char}
    (h : c.At p) (hd : d.At q) (hsource : d.source = c.source) (hbehind : q.Behind p char) :
    c.pos < d.pos ∧ d.charAt (d.pos - 1) = .ok char := by
  obtain ⟨before, hbefore⟩ := hbehind
  have hp := h.left_eq
  have hq := hd.left_eq
  have hstart := h.start_le
  have hleft : p.left = before.length + 1 + q.left := by
    simp only [Place.left, hbefore, List.length_append, List.length_cons]
    omega
  have hlength : d.length = c.length := by
    rw [length, length, hsource]
  refine ⟨by omega, ?_⟩
  have hindex : (d.pos - 1).toNat = c.pos.toNat + before.length := by
    omega
  have hget : d.source.toList[(d.pos - 1).toNat]? = some char := by
    rw [hindex, hsource, ← List.getElem?_drop, ← h.rest_eq, hbefore]
    simp
  simp only [charAt]
  rw [if_neg (by omega), hget]

/-- The place at a cursor. -/
def place (c : Cursor) : Place where
  rest := c.source.toList.drop c.pos.toNat

theorem at_place
    (hstart : 0 ≤ c.pos) (hstop : c.pos ≤ c.length) :
    c.At c.place :=
  ⟨hstart, hstop, rfl⟩

theorem ahead_eq
    (hstart : 0 ≤ c.pos) :
    c.ahead = .ok c.place.rest := by
  simp only [ahead, place]
  rw [if_pos hstart]

/-- What is read from a cursor in its text is what the rule reads from the place there. -/
theorem readBy_eq_ok
    {α : Type} {rule : Place → Except Failure (α × Place)} {value : α} {pos : Int}
    (hstart : 0 ≤ c.pos)
    (h : (c.readBy rule).outcome = .ok ⟨value, pos⟩) :
    ∃ q, rule c.place = .ok (value, q) ∧ pos = c.pos + ((c.place.left : Int) - q.left) := by
  simp only [readBy, ahead_eq hstart, readAhead] at h
  split at h
  · next x q hrule =>
      cases h
      exact ⟨q, hrule, rfl⟩
  · cases h

theorem readBy_of_rule
    {α : Type} {rule : Place → Except Failure (α × Place)} {value : α}
    (hstart : 0 ≤ c.pos) (h : rule c.place = .ok (value, q)) :
    (c.readBy rule).outcome = .ok ⟨value, c.pos + ((c.place.left : Int) - q.left)⟩ := by
  have hrule : rule { rest := c.place.rest } = .ok (value, q) := h
  simp only [readBy, ahead_eq hstart, readAhead, hrule]
  rfl

end Cursor

/-- What a fragment is made of was read by its rule. -/
theorem Parsed.Explained.of_map
    {α β : Type} {bound : Nat} {answer : Parsed α bound} {reads : α → Place → Prop}
    {fails : Failure → Prop} {f : α → β} {b : β} {q : Place}
    (hexplained : answer.Explained reads fails)
    (h : answer.plain.map (fun r => (f r.1, r.2)) = .ok (b, q)) :
    ∃ a, reads a q ∧ b = f a := by
  cases answer with
  | error failure => cases h
  | ok r =>
      cases h
      exact ⟨r.val.1, hexplained, rfl⟩

namespace Context

variable {cx : Context} {c : Cursor}

/-- A fragment ended with the closing tag of the tag that encloses it. -/
def ClosedAt (cx : Context) (start stop : Cursor) : Prop :=
  (∃ name, cx.enclosing = .tag name) ∧
    start.pos < stop.pos ∧
    stop.charAt (stop.pos - 1) = .ok cx.dialect.tagCloser

/-- How a fragment that is read at one cursor stops at another. -/
def StopsAt (cx : Context) (start stop : Cursor) : Fragment.Kind → Fragment → Prop
  | .body, .body ⟨_, true⟩ => cx.ClosedAt start stop
  | .body, .body ⟨_, false⟩ =>
      stop.pos = stop.length ∨
        (cx.enclosing ≠ .nothing ∧ stop.charAt stop.pos = .ok cx.dialect.closer)
  | .submessages, .submessages _ =>
      stop.pos = stop.length ∨ stop.charAt stop.pos = .ok cx.dialect.closer
  | .placeholder, .node _ | .markup, .node _ => start.pos < start.length → start.pos < stop.pos
  | .markup, .closingTag _ => cx.ClosedAt start stop
  | _, _ => False

/-- A cursor where nothing is left, or before a character. -/
theorem eof_or_charAt
    {p : Place} {char : Char} (h : c.At p) (hpeek : p.peek = none ∨ p.peek = some char) :
    c.pos = c.length ∨ c.charAt c.pos = .ok char :=
  hpeek.imp h.eof_iff.mp h.charAt_eq

theorem ClosedBehind.closedAt
    {start stop : Cursor} {p q : Place}
    (h : cx.ClosedBehind p q) (hp : start.At p) (hq : stop.At q)
    (hsource : stop.source = start.source) :
    cx.ClosedAt start stop := by
  obtain ⟨henclosing, hbehind⟩ := h
  exact ⟨henclosing, hp.charBefore_eq hq hsource hbehind⟩

/-- A body stops at the cursor of the place where its reading ends. -/
theorem Reads.body_stopsAt
    {start stop : Cursor} {p q : Place} {body : Body}
    (h : Reads cx p (.body body) q) (hp : start.At p) (hq : stop.At q)
    (hsource : stop.source = start.source) :
    cx.StopsAt start stop .body (.body body) := by
  obtain ⟨nodes, closed⟩ := body
  have hexits := h.exits
  cases closed with
  | true => exact ClosedBehind.closedAt hexits hp hq hsource
  | false =>
      rcases hexits with hend | ⟨henclosing, hcloser⟩
      · exact Or.inl (hq.eof_iff.mp hend)
      · exact Or.inr ⟨henclosing, hq.charAt_eq hcloser⟩

/-- So does markup, and it takes at least one character if there is one. -/
theorem Reads.markup_stopsAt
    {start stop : Cursor} {p q : Place} {piece : Piece}
    (h : Reads cx p (.markup piece) q) (hp : start.At p) (hq : stop.At q)
    (hsource : stop.source = start.source) :
    cx.StopsAt start stop .markup (Fragment.ofPiece piece) := by
  have hexits := h.exits
  cases piece with
  | closingTag name => exact ClosedBehind.closedAt hexits hp hq hsource
  | node node =>
      intro hmore
      have hlength : stop.length = start.length := by
        rw [Cursor.length, Cursor.length, hsource]
      have hadvance : q.left ≤ p.left - 1 := by
        simpa [Place.left, Place.advance] using Place.Follows.left_le h.follows
      have hleft := hp.left_eq
      have hright := hq.left_eq
      omega

/-- Reading a fragment from a cursor stops in its text, and at such a cursor. -/
def Exits (cx : Context) (c : Cursor) (kind : Fragment.Kind) : FromCursor Fragment → Prop
  | ⟨x, pos⟩ => c.pos ≤ pos ∧ pos ≤ c.length ∧ cx.StopsAt c { c with pos := pos } kind x

section Within

variable (hstart : 0 ≤ c.pos) (hstop : c.pos ≤ c.length)
include hstart hstop

/-- A place that follows the one at a cursor is at a later cursor in the text. -/
theorem at_follows
    {q : Place} (hq : q.Follows c.place) :
    c.pos ≤ c.pos + ((c.place.left : Int) - q.left) ∧
      c.pos + ((c.place.left : Int) - q.left) ≤ c.length ∧
      Cursor.At { c with pos := c.pos + ((c.place.left : Int) - q.left) } q := by
  have hat := (Cursor.at_place hstart hstop).of_follows hq
  have hle := hq.left_le
  exact ⟨by omega, hat.le_stop, hat⟩

/-- A placeholder stops behind its opener. -/
theorem readPlaceholderAt_exits
    {x : FromCursor Fragment}
    (h : (cx.readPlaceholderAt c).outcome = .ok x) :
    cx.Exits c .placeholder x := by
  obtain ⟨x, pos⟩ := x
  have hopener : (c.advance 1).pos = min (c.pos + 1) c.length := rfl
  have hlength : (c.advance 1).length = c.length := rfl
  obtain ⟨q, hrule, rfl⟩ := Cursor.readBy_eq_ok (by omega) h
  obtain ⟨node, hreads, rfl⟩ := (readPlaceholder_explained _ _).of_map hrule
  obtain ⟨hle, hwithin, -⟩ := at_follows (by omega) (by omega) hreads.follows
  refine ⟨by omega, by omega, ?_⟩
  intro hmore
  dsimp only
  omega

/-- A reference sign that stands for a number is one character long. -/
theorem readElement_exits
    {x : FromCursor Fragment}
    (h : (cx.readElement c).outcome = .ok x) :
    cx.Exits c .placeholder x := by
  unfold readElement at h
  split at h
  · exact readPlaceholderAt_exits hstart hstop h
  · split at h
    · cases h
    · next id href char hchar =>
        split at h
        · cases h
          have hopener : (c.advance 1).pos = min (c.pos + 1) c.length := rfl
          refine ⟨by omega, by omega, ?_⟩
          intro hmore
          dsimp only
          omega
        · exact readPlaceholderAt_exits hstart hstop h

/-- Reading a fragment stops where its kind has to stop. -/
theorem exits_of_readFragment
    {kind : Fragment.Kind} {x : FromCursor Fragment}
    (h : (cx.readFragment kind c).outcome = .ok x) :
    cx.Exits c kind x := by
  obtain ⟨x, pos⟩ := x
  have hat := Cursor.at_place hstart hstop
  cases kind with
  | body =>
      obtain ⟨q, hrule, rfl⟩ := Cursor.readBy_eq_ok hstart h
      obtain ⟨body, hreads, rfl⟩ := (readBody_explained _ _).of_map hrule
      obtain ⟨hle, hwithin, hq⟩ := at_follows hstart hstop hreads.follows
      exact ⟨hle, hwithin, hreads.body_stopsAt hat hq rfl⟩
  | placeholder => exact readElement_exits hstart hstop h
  | submessages =>
      obtain ⟨q, hrule, rfl⟩ := Cursor.readBy_eq_ok hstart h
      obtain ⟨subs, hreads, rfl⟩ := (readSubmessages_explained _ _).of_map hrule
      obtain ⟨hle, hwithin, hq⟩ := at_follows hstart hstop hreads.follows
      exact ⟨hle, hwithin, eof_or_charAt hq hreads.exits⟩
  | markup =>
      have hafter : c.isBeforeStart = false := by
        simp only [Cursor.isBeforeStart, decide_eq_false_iff_not]
        omega
      have hinside : c.withinText = c := by
        simp only [Cursor.withinText, Int.min_eq_left hstop]
      simp only [readFragment, readMarkupAt, hafter, hinside] at h
      obtain ⟨q, hrule, rfl⟩ := Cursor.readBy_eq_ok hstart h
      obtain ⟨piece, hreads, rfl⟩ := (readMarkup_explained _ _).of_map hrule
      have hfollows : q.Follows c.place :=
        Place.Follows.trans hreads.follows c.place.advance_follows
      obtain ⟨hle, hwithin, hq⟩ := at_follows hstart hstop hfollows
      exact ⟨hle, hwithin, hreads.markup_stopsAt hat hq rfl⟩

end Within

end Context

/-- Quoted text can be read from every cursor in a text, and is empty exactly if nothing is
taken. -/
theorem Cursor.readText_exits
    {c : Cursor} (hstart : 0 ≤ c.pos) (hstop : c.pos ≤ c.length)
    (d : Dialect) (m : Mode) :
    ∃ s pos, (c.readText d m).outcome = .ok ⟨s, pos⟩ ∧
      c.pos ≤ pos ∧ pos ≤ c.length ∧ (s = "" ↔ pos = c.pos) := by
  obtain ⟨hle, hwithin, -⟩ := Context.at_follows hstart hstop (c.place.scan_follows d m)
  refine ⟨(c.place.scan d m).1, _, ?_, hle, hwithin, ?_⟩
  · exact Cursor.readBy_of_rule hstart rfl
  · have hempty := d.scan_eq_nil_iff m c.place.rest
    have hsuffix := d.scan_suffix m c.place.rest
    have hshorter := hsuffix.length_le
    have hsame : (d.scan m c.place.rest).2 = c.place.rest ↔
        (d.scan m c.place.rest).2.length = c.place.rest.length :=
      ⟨congrArg List.length, hsuffix.eq_of_length⟩
    simp only [Place.scan, Place.left, String.ofList_eq_empty_iff]
    rw [hempty, hsame]
    omega

namespace Reader

/-- A text that is read is read to its end. -/
theorem rest_eq_nil_of_read
    {r : Reader} {text : List Char} {m : Message} {p : Place}
    (h : r.read text = .ok (m, p)) :
    p.rest = [] := by
  obtain ⟨_, closed, hreads⟩ := read_eq_ok_iff.mp h
  have hexits := hreads.exits
  cases closed with
  | true =>
      obtain ⟨⟨name, henclosing⟩, _⟩ := hexits
      cases henclosing
  | false =>
      rcases hexits with hend | ⟨henclosing, _⟩
      · exact List.head?_eq_none_iff.mp hend
      · exact absurd rfl henclosing

end Reader

namespace Context

/-- Every rule ends, and where it stops is known. From every place a rule reads something or fails.
From a cursor in a text, quoted text is always read, and a fragment stops at a later cursor of the
text where its kind has to stop; a whole text is read to its end. -/
theorem readFragment_exits
    (cx : Context) (c : Cursor) (hstart : 0 ≤ c.pos) (hstop : c.pos ≤ c.length) :
    (∀ p rule, (∀ first, rule = .piece first → p.peek = some first) →
      (∃ x q, x.rule = rule ∧ Reads cx p x q) ∨ ∃ f, Fails cx p rule f) ∧
    (∀ m, ∃ s pos, (c.readText cx.dialect m).outcome = .ok ⟨s, pos⟩ ∧
      c.pos ≤ pos ∧ pos ≤ c.length ∧ (s = "" ↔ pos = c.pos)) ∧
    (∀ kind x, (cx.readFragment kind c).outcome = .ok x → cx.Exits c kind x) ∧
    ∀ (r : Reader) text m p, r.read text = .ok (m, p) → p.rest = [] := by
  refine ⟨?_, ?_, ?_, ?_⟩
  · intro p rule hrule
    exact Rule.ends cx p rule hrule
  · intro m
    exact Cursor.readText_exits hstart hstop cx.dialect m
  · intro kind x h
    exact exits_of_readFragment hstart hstop h
  · intro r text m p h
    exact Reader.rest_eq_nil_of_read h

/-- In the content of a tag, reading stops behind its closing tag and leaves the closer after it. -/
theorem readFragment_exits_closingTag :
    let cx : Context := { dialect := .standard, limit := 100, enclosing := .tag "b" }
    let c : Cursor := ⟨"<b>x</b>\x7d", 3⟩
    0 ≤ c.pos ∧ c.pos ≤ c.length ∧
      ∃ x, (cx.readFragment .body c).outcome = .ok x ∧ x.pos = 8 ∧ cx.Exits c .body x := by
  intro cx c
  have hstart : 0 ≤ c.pos := by
    decide
  have hstop : c.pos ≤ c.length := by
    decide
  have hpos : (cx.readFragment .body c).outcome.map (·.pos) = .ok 8 := by
    decide +kernel
  refine ⟨hstart, hstop, ?_⟩
  have hexits := (cx.readFragment_exits c hstart hstop).2.2.1 .body
  cases hread : (cx.readFragment .body c).outcome with
  | error fault =>
      rw [hread] at hpos
      cases hpos
  | ok x =>
      rw [hread] at hpos
      exact ⟨x, rfl, Except.ok.inj hpos, hexits x hread⟩

end Context

end MessageFormat
