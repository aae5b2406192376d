import MessageFormat.Proofs.Tokens

/-!
# What the readers of headers accept

Each reader of a part that holds no message is a chain of a few steps: blanks are skipped, a text is
scanned, a delimiter is found and passed. For each thing that it can read, a lemma says which chain
of steps reads it. Where a step is missing, a reader expects it at a place further on
(`Failure.Expects`); only offsets and closing tags fail in other ways.
-/

namespace MessageFormat

/-- Reading from a place failed further on, because something else should have come next. -/
def Failure.Expects (p : Place) (f : Failure) : Prop :=
  ∃ what, ∃ q : Place, q.Follows p ∧ f = ⟨.expected what, q⟩

theorem Failure.Expects.of_follows
    {p q : Place} {f : Failure} (h : f.Expects q) (hq : q.Follows p) :
    f.Expects p := by
  obtain ⟨what, r, hr, rfl⟩ := h
  exact ⟨what, r, hr.trans hq, rfl⟩

namespace Dialect

variable {d : Dialect} {p q start : Place} {enclosing : Enclosing} {f : Failure}
  {head : TagHead} {id type word name opened selector format : String}

theorem readWord_expects
    {what : Expectation} (h : d.readWord what p = .error f) :
    f.Expects p := by
  simp only [readWord, Place.expected] at h
  split at h <;> cases h
  exact ⟨what, _, p.skip_follows, rfl⟩

theorem readHead_expects
    (h : d.readHead p = .error f) :
    f.Expects p := by
  unfold readHead at h
  split at h
  · next hid =>
      cases h
      exact readWord_expects hid
  · next id q hid =>
      have hq := readWord_follows hid
      split at h
      · cases h
      · split at h
        · cases h
          exact ⟨_, _, hq, rfl⟩
        · have hnext := q.advance_follows.trans hq
          split at h
          · next htype =>
              cases h
              exact (readWord_expects htype).of_follows hnext
          · next type r htype =>
              have hr := (readWord_follows htype).trans hnext
              split at h
              · split at h <;> cases h
                exact ⟨_, _, hr, rfl⟩
              · split at h <;> cases h
                exact ⟨_, _, hr, rfl⟩

theorem readFormat_expects
    (h : d.readFormat p = .error f) :
    f.Expects p := by
  simp only [readFormat, Place.expected] at h
  split at h <;> cases h
  exact ⟨_, _, Place.Follows.refl p, rfl⟩

theorem readCloser_expects
    (h : d.readCloser p = .error f) :
    f.Expects p := by
  simp only [readCloser, Place.expected] at h
  split at h <;> cases h
  exact ⟨_, _, p.skip_follows, rfl⟩

theorem readSelector_expects
    (h : d.readSelector p = .error f) :
    f.Expects p := by
  simp only [readSelector, Place.expected] at h
  split at h
  · cases h
    exact ⟨_, _, Place.Follows.refl p, rfl⟩
  · split at h <;> cases h
    exact ⟨_, _, (Place.skip_follows _).trans (p.scan_follows d .selector), rfl⟩

theorem readWord_eq_ok_iff
    {what : Expectation} :
    d.readWord what p = .ok (word, q)
      ↔
    word ≠ "" ∧ ∃ r, p.skip.scan d .word = (word, r) ∧ r.skip = q := by
  simp only [readWord, Place.expected]
  obtain ⟨text, r⟩ := p.skip.scan d .word
  grind [String.isEmpty_iff]

theorem readHead_bare_iff :
    d.readHead p = .ok (.bare id, q)
      ↔
    ∃ r, d.readWord .placeholderId p = .ok (id, r) ∧ r.peek = some d.closer ∧ r.advance = q := by
  simp only [readHead, Place.expected]
  grind

theorem readHead_typed_iff :
    d.readHead p = .ok (.typed id type, q)
      ↔
    ∃ r s, d.readWord .placeholderId p = .ok (id, r) ∧ r.peek = some d.separator ∧
      d.readWord .type r.advance = .ok (type, s) ∧ s.peek = some d.closer ∧
      d.isBranching type = false ∧ s.advance = q := by
  have hne : d.separator ≠ d.closer := d.char_ne .separator .closer
  simp only [readHead, Place.expected]
  grind

theorem readHead_formatted_iff :
    d.readHead p = .ok (.formatted id type, q)
      ↔
    ∃ r s, d.readWord .placeholderId p = .ok (id, r) ∧ r.peek = some d.separator ∧
      d.readWord .type r.advance = .ok (type, s) ∧ s.peek = some d.separator ∧
      s.advance.skip = q := by
  have hne : d.separator ≠ d.closer := d.char_ne .separator .closer
  simp only [readHead, Place.expected]
  grind

theorem readFormat_eq_ok_iff :
    d.readFormat p = .ok (format, q)
      ↔
    format ≠ "" ∧ ∃ text, p.scan d .body = (text, q) ∧
      String.ofList (trimBlanksEnd text.toList) = format := by
  simp only [readFormat, Place.expected]
  obtain ⟨text, r⟩ := p.scan d .body
  grind [String.isEmpty_iff]

theorem readCloser_eq_ok_iff :
    d.readCloser p = .ok q ↔ p.skip.peek = some d.closer ∧ p.skip.advance = q := by
  simp only [readCloser, Place.expected]
  grind

theorem readSelector_eq_ok_iff :
    d.readSelector p = .ok (selector, q)
      ↔
    selector ≠ "" ∧ ∃ r, p.scan d .selector = (selector, r) ∧ r.skip.peek = some d.opener ∧
      r.skip.advance = q := by
  simp only [readSelector, Place.expected]
  obtain ⟨text, r⟩ := p.scan d .selector
  grind [String.isEmpty_iff]

theorem readClosingTag_closing_iff :
    d.readClosingTag opened start p = .ok (.closing name, q)
      ↔
    name ≠ "" ∧ name = opened ∧ ∃ r, p.skip.scan d .tagName = (name, r) ∧
      r.skip.peek = some d.tagCloser ∧ r.skip.advance = q := by
  simp only [readClosingTag, Place.expected]
  obtain ⟨text, r⟩ := p.skip.scan d .tagName
  grind [String.isEmpty_iff]

theorem readClosingTag_text_iff :
    d.readClosingTag opened start p = .ok (.text, q) ↔ p.skip.scan d .tagName = ("", q) := by
  simp only [readClosingTag, Place.expected]
  obtain ⟨text, r⟩ := p.skip.scan d .tagName
  grind [String.isEmpty_iff]

theorem readClosingTag_ne
    (h : d.readClosingTag opened start p = .ok (head, q)) :
    head ≠ .empty name ∧ head ≠ .opening name := by
  simp only [readClosingTag, Place.expected] at h
  grind

/-- Behind a slash, no tag is opened. -/
theorem readTagHead_ne
    (hslash : start.advance.peek = some d.tagSlash)
    (h : d.readTagHead enclosing start = .ok (head, q)) :
    head ≠ .empty name ∧ head ≠ .opening name := by
  simp only [readTagHead] at h
  rw [if_pos hslash] at h
  split at h
  · exact readClosingTag_ne h
  · cases h

theorem readTagHead_closing_iff :
    d.readTagHead enclosing start = .ok (.closing name, q)
      ↔
    start.advance.peek = some d.tagSlash ∧ ∃ opened, enclosing = .tag opened ∧
      d.readClosingTag opened start start.advance.advance = .ok (.closing name, q) := by
  simp only [readTagHead]
  grind

theorem readTagHead_empty_iff :
    d.readTagHead enclosing start = .ok (.empty name, q)
      ↔
    start.advance.peek ≠ some d.tagSlash ∧ name ≠ "" ∧
      ∃ r, start.advance.scan d .tagName = (name, r) ∧
        r.skip.peek = some d.tagSlash ∧ r.skip.advance.peek = some d.tagCloser ∧
        r.skip.advance.advance = q := by
  by_cases hslash : start.advance.peek = some d.tagSlash
  · constructor
    · intro h
      exact absurd rfl (readTagHead_ne hslash h).1
    · rintro ⟨hne, -⟩
      exact absurd hslash hne
  · simp only [readTagHead]
    obtain ⟨text, r⟩ := start.advance.scan d .tagName
    grind [String.isEmpty_iff]

theorem readTagHead_opening_iff :
    d.readTagHead enclosing start = .ok (.opening name, q)
      ↔
    start.advance.peek ≠ some d.tagSlash ∧ name ≠ "" ∧
      ∃ r, start.advance.scan d .tagName = (name, r) ∧
        r.skip.peek = some d.tagCloser ∧ r.skip.advance = q := by
  have hne : d.tagCloser ≠ d.tagSlash := d.char_ne .tagCloser .tagSlash
  by_cases hslash : start.advance.peek = some d.tagSlash
  · constructor
    · intro h
      exact absurd rfl (readTagHead_ne hslash h).2
    · rintro ⟨hne, -⟩
      exact absurd hslash hne
  · simp only [readTagHead]
    obtain ⟨text, r⟩ := start.advance.scan d .tagName
    grind [String.isEmpty_iff]

theorem readTagHead_text_iff :
    d.readTagHead enclosing start = .ok (.text, q)
      ↔
    (start.advance.peek = some d.tagSlash ∧ ∃ opened, enclosing = .tag opened ∧
        start.advance.advance.skip.scan d .tagName = ("", q)) ∨
      start.advance.peek ≠ some d.tagSlash ∧
        (start.advance.scan d .tagName = ("", q) ∨
          ∃ name r, start.advance.scan d .tagName = (name, r) ∧ name ≠ "" ∧
            (r.skip.peek = some d.tagSlash ∧ r.skip.advance.peek ≠ some d.tagCloser ∧
                r.skip.advance.keep start = q ∨
              r.skip.peek ≠ some d.tagSlash ∧ r.skip.peek ≠ some d.tagCloser ∧
                r.skip.keep start = q)) := by
  have hne : d.tagCloser ≠ d.tagSlash := d.char_ne .tagCloser .tagSlash
  simp only [readTagHead]
  by_cases hslash : start.advance.peek = some d.tagSlash
  · rw [if_pos hslash]
    cases enclosing with
    | tag opened => simp [readClosingTag_text_iff, hslash]
    | nothing => simp [hslash]
    | placeholder id type => simp [hslash]
  · rw [if_neg hslash]
    obtain ⟨text, r⟩ := start.advance.scan d .tagName
    simp only [Prod.mk.injEq, and_assoc, exists_and_left, exists_eq_left']
    grind [String.isEmpty_iff]

end Dialect

end MessageFormat
