import MessageFormat.Message
import MessageFormat.Message.Failure
import MessageFormat.Offset

/-!
# Headers

The parts of a message that hold no message themselves: the id and type of a placeholder, the
offset clause, the format, the selector in front of a sub-message, and the start of a tag. Each
reader takes a place and gives what it read and the place after it, or a failure.

For each reader there is a lemma which says that the place after what it read follows the place
where it started, and that less is left where a body follows.
-/

namespace MessageFormat

/-- What encloses a body. -/
inductive Enclosing where
  | nothing
  | placeholder (id type : String)
  | tag (name : String)
deriving DecidableEq, Repr

/-- How a placeholder starts. -/
inductive Head where
  /-- The placeholder ends after its id. -/
  | bare (id : String)
  /-- The placeholder ends after its type. -/
  | typed (id type : String)
  /-- A format or sub-messages follow. -/
  | formatted (id type : String)
deriving DecidableEq, Repr

/-- What a piece of markup turned out to be. -/
inductive TagHead where
  /-- Text, as it is written. -/
  | text
  | closing (name : String)
  /-- A tag without content. -/
  | empty (name : String)
  /-- A tag whose content follows. -/
  | opening (name : String)
deriving DecidableEq, Repr

namespace Dialect

/-- Reads an id or a type, and the blanks around it. -/
def readWord (d : Dialect) (what : Expectation) (p : Place) :
    Except Failure (String × Place) :=
  let (word, q) := p.skip.scan d .word
  if word.isEmpty then
    p.skip.expected what
  else
    .ok (word, q.skip)

/-- Reads the start of a placeholder after its opener. -/
def readHead (d : Dialect) (p : Place) : Except Failure (Head × Place) :=
  match d.readWord .placeholderId p with
  | .error failure => .error failure
  | .ok (id, q) =>
      if q.peek = some d.closer then
        .ok (.bare id, q.advance)
      else if q.peek ≠ some d.separator then
        q.expected (.either d.separator d.closer)
      else
        match d.readWord .type q.advance with
        | .error failure => .error failure
        | .ok (type, r) =>
            if r.peek = some d.closer then
              if d.isBranching type then
                r.expected .submessages
              else
                .ok (.typed id type, r.advance)
            else if r.peek ≠ some d.separator then
              r.expected (.either d.separator d.closer)
            else
              .ok (.formatted id type, r.advance.skip)

/-- Turns an offset clause into the result of reading it from a place. -/
def offsetResult (p : Place) : OffsetClause → Except Failure (Option Int × Place)
  | .absent => .ok (none, p)
  | .unnumbered left => Place.expected { p with rest := left } .number
  | .unreadable text left => .error ⟨.notNumber text, { p with rest := left }⟩
  | .overlong digits left => .error ⟨.tooManyDigits digits, { p with rest := left }⟩
  | .offset n left => .ok (some n, { p with rest := left })

/-- Reads the offset clause, if it is there. -/
def readOffsetNumber (d : Dialect) (p : Place) (seam : Seam := none) :
    Except Failure (Option Int × Place) :=
  offsetResult p (d.readOffset p.rest seam)

/-- Reads the offset clause and the blanks after it, if the type allows one and it is there. -/
def readOffsetClause (d : Dialect) (type : String) (p : Place) (seam : Seam := none) :
    Except Failure (Option Int × Place) :=
  if d.isNumeric type then
    match d.readOffsetNumber p seam with
    | .error failure => .error failure
    | .ok (none, q) => .ok (none, q)
    | .ok (some n, q) => .ok (some n, q.skip)
  else
    .ok (none, p)

/-- Reads a format and drops the blanks at its end. -/
def readFormat (d : Dialect) (p : Place) : Except Failure (String × Place) :=
  let (text, q) := p.scan d .body
  let format := String.ofList (trimBlanksEnd text.toList)
  if format.isEmpty then
    p.expected .format
  else
    .ok (format, q)

/-- Reads the closer of a placeholder and the blanks before it. -/
def readCloser (d : Dialect) (p : Place) : Except Failure Place :=
  if p.skip.peek = some d.closer then
    .ok p.skip.advance
  else
    p.skip.expected (.char d.closer)

/-- Reads a selector and the opener of its sub-message. -/
def readSelector (d : Dialect) (p : Place) : Except Failure (String × Place) :=
  let (selector, q) := p.scan d .selector
  if selector.isEmpty then
    p.expected .selector
  else if q.skip.peek = some d.opener then
    .ok (selector, q.skip.advance)
  else
    q.skip.expected (.char d.opener)

/-- Reads a closing tag, of which `start` is the place of the tag opener and `p` the place after
the slash. -/
def readClosingTag (d : Dialect) (opened : String) (start p : Place) :
    Except Failure (TagHead × Place) :=
  let (name, q) := p.skip.scan d .tagName
  if name.isEmpty then
    .ok (.text, q)
  else if q.skip.peek ≠ some d.tagCloser then
    q.skip.expected (.char d.tagCloser)
  else if name ≠ opened then
    .error ⟨.tagMismatch opened name (start.left - q.skip.left), start⟩
  else
    .ok (.closing name, q.skip.advance)

/-- Reads markup up to the content of a tag. Without a name, or without a tag closer after it, the
markup is text. -/
def readTagHead (d : Dialect) (enclosing : Enclosing) (start : Place) :
    Except Failure (TagHead × Place) :=
  let p := start.advance
  if p.peek = some d.tagSlash then
    match enclosing with
    | .tag opened => d.readClosingTag opened start p.advance
    | _ => .error ⟨.strayClosingTag d.tagSlash, p⟩
  else
    let (name, q) := p.scan d .tagName
    if name.isEmpty then
      .ok (.text, q)
    else if q.skip.peek = some d.tagSlash then
      if q.skip.advance.peek = some d.tagCloser then
        .ok (.empty name, q.skip.advance.advance)
      else
        .ok (.text, q.skip.advance.keep start)
    else if q.skip.peek = some d.tagCloser then
      .ok (.opening name, q.skip.advance)
    else
      .ok (.text, q.skip.keep start)

theorem readWord_follows
    {d : Dialect} {what : Expectation} {p q : Place} {word : String}
    (h : d.readWord what p = .ok (word, q)) :
    q.Follows p := by
  have hscan : (p.skip.scan d .word).2.skip.Follows p :=
    ((Place.skip_follows _).trans (p.skip.scan_follows d .word)).trans p.skip_follows
  simp only [readWord, Place.expected] at h
  split at h
  · cases h
  · cases h
    exact hscan

theorem readHead_follows
    {d : Dialect} {p q : Place} {head : Head}
    (h : d.readHead p = .ok (head, q)) :
    q.Follows p := by
  unfold readHead at h
  split at h
  · cases h
  · next id r hid =>
      have hr : r.advance.Follows p :=
        r.advance_follows.trans (readWord_follows hid)
      split at h
      · cases h
        exact hr
      · split at h
        · cases h
        · split at h
          · cases h
          · next type s htype =>
              have hs : s.advance.Follows p :=
                (s.advance_follows.trans (readWord_follows htype)).trans hr
              split at h
              · split at h <;> cases h
                exact hs
              · split at h <;> cases h
                exact s.advance.skip_follows.trans hs

theorem readOffsetNumber_follows
    {d : Dialect} {p q : Place} {seam : Seam} {offset : Option Int}
    (h : d.readOffsetNumber p seam = .ok (offset, q)) :
    q.Follows p := by
  unfold readOffsetNumber at h
  cases hoffset : d.readOffset p.rest seam with
  | absent =>
      rw [hoffset] at h
      cases h
      exact Place.Follows.refl p
  | unnumbered left =>
      rw [hoffset] at h
      cases h
  | unreadable text left =>
      rw [hoffset] at h
      cases h
  | overlong digits left =>
      rw [hoffset] at h
      cases h
  | offset n left =>
      rw [hoffset] at h
      cases h
      exact readOffset_suffix hoffset

theorem readOffsetClause_follows
    {d : Dialect} {type : String} {p q : Place} {seam : Seam} {offset : Option Int}
    (h : d.readOffsetClause type p seam = .ok (offset, q)) :
    q.Follows p := by
  unfold readOffsetClause at h
  split at h
  · split at h
    · cases h
    · next r hnumber =>
        cases h
        exact readOffsetNumber_follows hnumber
    · next n r hnumber =>
        cases h
        exact r.skip_follows.trans (readOffsetNumber_follows hnumber)
  · cases h
    exact Place.Follows.refl p

theorem readFormat_follows
    {d : Dialect} {p q : Place} {format : String}
    (h : d.readFormat p = .ok (format, q)) :
    q.Follows p := by
  have hscan := p.scan_follows d .body
  simp only [readFormat, Place.expected] at h
  split at h
  · cases h
  · obtain ⟨-, rfl⟩ := Prod.mk.inj (Except.ok.inj h)
    exact hscan

theorem readCloser_follows
    {d : Dialect} {p q : Place}
    (h : d.readCloser p = .ok q) :
    q.Follows p := by
  simp only [readCloser, Place.expected] at h
  split at h
  · cases h
    exact p.skip.advance_follows.trans p.skip_follows
  · cases h

theorem readSelector_follows
    {d : Dialect} {p q : Place} {selector : String}
    (h : d.readSelector p = .ok (selector, q)) :
    q.Follows p := by
  have hscan : (p.scan d .selector).2.skip.advance.Follows p :=
    ((Place.advance_follows _).trans (Place.skip_follows _)).trans (p.scan_follows d .selector)
  simp only [readSelector, Place.expected] at h
  split at h
  · cases h
  · split at h <;> cases h
    exact hscan

/-- A sub-message starts after at least one character, its opener. -/
theorem readSelector_left_lt
    {d : Dialect} {p q : Place} {selector : String}
    (h : d.readSelector p = .ok (selector, q)) :
    q.left < p.left := by
  have hscan : (p.scan d .selector).2.skip.Follows p :=
    (Place.skip_follows _).trans (p.scan_follows d .selector)
  simp only [readSelector, Place.expected] at h
  split at h
  · cases h
  · split at h
    · next hopener =>
        cases h
        exact Nat.lt_of_lt_of_le (Place.advance_left_lt hopener) hscan.left_le
    · cases h

theorem readClosingTag_follows
    {d : Dialect} {opened : String} {start p q : Place} {head : TagHead}
    (h : d.readClosingTag opened start p = .ok (head, q)) :
    q.Follows p := by
  have hscan : (p.skip.scan d .tagName).2.Follows p :=
    (p.skip.scan_follows d .tagName).trans p.skip_follows
  simp only [readClosingTag, Place.expected] at h
  split at h
  · cases h
    exact hscan
  · split at h
    · cases h
    · split at h <;> cases h
      exact ((Place.advance_follows _).trans (Place.skip_follows _)).trans hscan

/-- Markup is read from behind its tag opener on. -/
theorem readTagHead_follows
    {d : Dialect} {enclosing : Enclosing} {start q : Place} {head : TagHead}
    (h : d.readTagHead enclosing start = .ok (head, q)) :
    q.Follows start.advance := by
  have hscan := start.advance.scan_follows d .tagName
  have hskip : (start.advance.scan d .tagName).2.skip.Follows start.advance :=
    (Place.skip_follows _).trans hscan
  have hnext : (start.advance.scan d .tagName).2.skip.advance.Follows start.advance :=
    (Place.advance_follows _).trans hskip
  simp only [readTagHead] at h
  split at h
  · split at h
    · exact (readClosingTag_follows h).trans start.advance.advance_follows
    · cases h
  · split at h
    · cases h
      exact hscan
    · split at h
      · split at h <;> cases h
        · exact (Place.advance_follows _).trans hnext
        · exact (Place.keep_follows _ start).trans hnext
      · split at h <;> cases h
        · exact hnext
        · exact (Place.keep_follows _ start).trans hskip

theorem readTagHead_left_le
    {d : Dialect} {enclosing : Enclosing} {start q : Place} {head : TagHead}
    (h : d.readTagHead enclosing start = .ok (head, q)) :
    q.left ≤ start.left :=
  ((readTagHead_follows h).trans start.advance_follows).left_le

/-- The content of a tag starts after at least one character, its tag closer. -/
theorem readTagHead_left_lt
    {d : Dialect} {enclosing : Enclosing} {start q : Place} {name : String}
    (h : d.readTagHead enclosing start = .ok (.opening name, q)) :
    q.left < start.left := by
  have hskip : (start.advance.scan d .tagName).2.skip.Follows start :=
    ((Place.skip_follows _).trans (start.advance.scan_follows d .tagName)).trans
      start.advance_follows
  simp only [readTagHead] at h
  split at h
  · split at h
    · simp only [readClosingTag, Place.expected] at h
      split at h
      · cases h
      · split at h
        · cases h
        · split at h <;> cases h
    · cases h
  · split at h
    · cases h
    · split at h
      · split at h <;> cases h
      · split at h
        · next hcloser =>
            cases h
            exact Nat.lt_of_lt_of_le (Place.advance_left_lt hcloser) hskip.left_le
        · cases h

end Dialect

end MessageFormat
