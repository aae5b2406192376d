import MessageFormat.Proofs.Derivation.Headers
import MessageFormat.Proofs.Exits
import MessageFormat.Proofs.Lookalikes

/-!
# Steps that look at little

A step from one place to another is local if the characters in between decide it: in front of any
other text, the same step leads behind them (`Local`). Some steps also look at the next character.
They need a text that begins like the one that was there (`Place.BeginsLike`), and in a chain of
steps this is so wherever a later step takes a character.

The readers of headers are chains of such steps. Only one looks further ahead: where no offset is
given, the whole offset keyword is compared.
-/

namespace MessageFormat

/-- A text begins like what is left at a place, or there is nothing in either. -/
def Place.BeginsLike (q : Place) (tail : List Char) : Prop :=
  tail.head? = q.peek

/-- The characters between two places decide the step from one to the other: in front of every text
that fits, the same step leads behind them. -/
def Local (step : Place → Place → Prop) (fits : List Char → Prop) (p q : Place) : Prop :=
  ∃ window, p.rest = window ++ q.rest ∧
    ∀ tail kept, fits tail → ∃ kept', step ⟨window ++ tail, kept⟩ ⟨tail, kept'⟩

/-- Every text fits. -/
def anyText (_ : List Char) : Prop :=
  True

section Chains

variable {step step₁ step₂ : Place → Place → Prop} {fits fits' fits₁ fits₂ : List Char → Prop}
  {p q r : Place} {window tail : List Char}

/-- Texts that begin alike do so behind other characters as well. -/
theorem head?_append_of_like
    {text rest : List Char} (htext : text = window ++ rest) (h : tail.head? = rest.head?) :
    (window ++ tail).head? = text.head? := by
  rw [htext, List.head?_append, List.head?_append, h]

theorem Place.BeginsLike.append
    (h : q.BeginsLike tail) (hr : r.rest = window ++ q.rest) :
    r.BeginsLike (window ++ tail) :=
  head?_append_of_like hr h

/-- Where a character is taken, any text may follow. -/
theorem Place.beginsLike_of_lt
    (hlt : q.left < r.left) (hr : r.rest = window ++ q.rest) :
    r.BeginsLike (window ++ tail) := by
  cases window with
  | nil => simp [Place.left, hr] at hlt
  | cons c window => simp [BeginsLike, Place.peek, hr]

theorem Place.Follows.advance_lt
    {c : Char} (h : q.Follows p) (hc : q.peek = some c) :
    q.advance.left < p.left :=
  Nat.lt_of_lt_of_le (Place.advance_left_lt hc) h.left_le

theorem Place.Behind.left_lt
    {c : Char} (h : q.Behind p c) :
    q.left < p.left := by
  obtain ⟨before, hbefore⟩ := h
  simp only [Place.left, hbefore, List.length_append, List.length_cons]
  omega

/-- The character that a place lies behind is among those that lead to it. -/
theorem Place.Behind.mem_window
    {c : Char} (h : q.Behind r c) (hr : r.rest = window ++ q.rest) :
    c ∈ window := by
  obtain ⟨before, hbefore⟩ := h
  have hwindow : window = before ++ [c] := by
    apply (List.append_left_inj q.rest).mp
    rw [← hr, hbefore, List.append_assoc, List.singleton_append]
  simp [hwindow]

theorem Local.follows
    (h : Local step fits p q) :
    q.Follows p := by
  obtain ⟨window, hrest, -⟩ := h
  exact ⟨window, hrest.symm⟩

theorem Local.imp
    (h : Local step₁ fits p q) (hstep : ∀ a b, step₁ a b → ∃ kept, step₂ a ⟨b.rest, kept⟩) :
    Local step₂ fits p q := by
  obtain ⟨window, hrest, hlocal⟩ := h
  refine ⟨window, hrest, ?_⟩
  intro tail kept hfits
  obtain ⟨kept', hkept⟩ := hlocal tail kept hfits
  exact hstep _ _ hkept

theorem Local.mono
    (h : Local step₁ fits p q) (hstep : ∀ a b, step₁ a b → step₂ a b) :
    Local step₂ fits p q :=
  h.imp fun a b hab => ⟨b.kept, hstep a b hab⟩

/-- What was kept does not matter. -/
theorem Local.keep
    (h : Local step q.BeginsLike p q) (start : Place) :
    Local step (q.keep start).BeginsLike p (q.keep start) :=
  h

theorem Local.weaken
    (h : Local step fits p q) (hfits : ∀ tail, fits' tail → fits tail) :
    Local step fits' p q := by
  obtain ⟨window, hrest, hlocal⟩ := h
  exact ⟨window, hrest, fun tail kept htail => hlocal tail kept (hfits tail htail)⟩

/-- Two steps make a chain if the second, and what follows it, fit the first. -/
theorem Local.seq
    (h₁ : Local step₁ fits₁ p r) (h₂ : Local step₂ fits₂ r q)
    (hfits : ∀ window tail, r.rest = window ++ q.rest → fits₂ tail → fits₁ (window ++ tail)) :
    Local (fun a c => ∃ b, step₁ a b ∧ step₂ b c) fits₂ p q := by
  obtain ⟨window₁, hrest₁, hlocal₁⟩ := h₁
  obtain ⟨window₂, hrest₂, hlocal₂⟩ := h₂
  refine ⟨window₁ ++ window₂, by rw [hrest₁, hrest₂, List.append_assoc], ?_⟩
  intro tail kept htail
  obtain ⟨kept₁, hstep₁⟩ := hlocal₁ (window₂ ++ tail) kept (hfits window₂ tail hrest₂ htail)
  obtain ⟨kept₂, hstep₂⟩ := hlocal₂ tail kept₁ htail
  exact ⟨kept₂, _, by rwa [List.append_assoc], hstep₂⟩

theorem Local.seq_like
    (h₁ : Local step₁ r.BeginsLike p r) (h₂ : Local step₂ q.BeginsLike r q) :
    Local (fun a c => ∃ b, step₁ a b ∧ step₂ b c) q.BeginsLike p q :=
  h₁.seq h₂ fun _ _ hrest htail => htail.append hrest

theorem Local.seq_lt
    (h₁ : Local step₁ r.BeginsLike p r) (h₂ : Local step₂ fits r q) (hlt : q.left < r.left) :
    Local (fun a c => ∃ b, step₁ a b ∧ step₂ b c) fits p q :=
  h₁.seq h₂ fun _ _ hrest _ => Place.beginsLike_of_lt hlt hrest

theorem Local.seq_any
    (h₁ : Local step₁ anyText p r) (h₂ : Local step₂ fits r q) :
    Local (fun a c => ∃ b, step₁ a b ∧ step₂ b c) fits p q :=
  h₁.seq h₂ fun _ _ _ _ => trivial

/-- The first character is the same, if one is taken or the text that follows begins alike. -/
theorem Local.peek
    (h : Local step fits p q)
    (hlook : q.left < p.left ∨ ∀ tail, fits tail → q.BeginsLike tail) :
    Local (fun a b => a.peek = p.peek ∧ step a b) fits p q := by
  obtain ⟨window, hrest, hlocal⟩ := h
  refine ⟨window, hrest, ?_⟩
  intro tail kept htail
  obtain ⟨kept', hstep⟩ := hlocal tail kept htail
  refine ⟨kept', ?_, hstep⟩
  rcases hlook with hlt | hlike
  · exact Place.beginsLike_of_lt hlt hrest
  · exact (hlike tail htail).append hrest

theorem Local.peek_of_lt
    (h : Local step fits p q) (hlt : q.left < p.left) :
    Local (fun a b => a.peek = p.peek ∧ step a b) fits p q :=
  h.peek (Or.inl hlt)

theorem Local.peek_of_like
    (h : Local step q.BeginsLike p q) :
    Local (fun a b => a.peek = p.peek ∧ step a b) q.BeginsLike p q :=
  h.peek (Or.inr fun _ htail => htail)

/-- So is the second, if a character is taken behind the first. -/
theorem Local.peekNext
    {c : Char} (h : Local step fits p q) (hp : p.peek = some c) (hq : q.Follows p.advance)
    (hlook : q.left < p.advance.left ∨ ∀ tail, fits tail → q.BeginsLike tail) :
    Local (fun a b => a.advance.peek = p.advance.peek ∧ step a b) fits p q := by
  obtain ⟨before, hbefore⟩ := hq
  obtain ⟨rest, hrest⟩ : ∃ rest, p.rest = c :: rest := List.head?_eq_some_iff.mp hp
  obtain ⟨window, hwindow, hlocal⟩ := h
  have hbehind : p.advance.rest = before ++ q.rest := hbefore.symm
  have heq : window = c :: before := by
    apply (List.append_left_inj q.rest).mp
    rw [← hwindow, hrest, List.cons_append, ← hbehind, Place.advance, hrest, List.tail_cons]
  refine ⟨window, hwindow, ?_⟩
  intro tail kept htail
  obtain ⟨kept', hstep⟩ := hlocal tail kept htail
  refine ⟨kept', ?_, hstep⟩
  subst heq
  rcases hlook with hlt | hlike
  · exact Place.beginsLike_of_lt hlt hbehind
  · exact (hlike tail htail).append hbehind

/-- The characters in between are the same. -/
theorem Local.between
    (h : Local step fits p q) :
    Local (fun a b => a.upTo b = p.upTo q ∧ step a b) fits p q := by
  obtain ⟨window, hrest, hlocal⟩ := h
  have hupTo (a b : Place) (hab : a.rest = window ++ b.rest) : a.upTo b = String.ofList window := by
    simp [Place.upTo, hab]
  refine ⟨window, hrest, ?_⟩
  intro tail kept htail
  obtain ⟨kept', hstep⟩ := hlocal tail kept htail
  exact ⟨kept', (hupTo _ _ rfl).trans (hupTo p q hrest).symm, hstep⟩

end Chains

section Steps

variable {d : Dialect} {m : Mode} {p q : Place} {c : Char} {text : String}

/-- What is taken while a test holds is taken in front of every text that begins alike. -/
theorem takeWhile_swap
    (test : Char → Bool) {chars tail : List Char}
    (h : tail.head? = (chars.dropWhile test).head?) :
    (chars.takeWhile test ++ tail).takeWhile test = chars.takeWhile test ∧
      (chars.takeWhile test ++ tail).dropWhile test = tail := by
  have hend : tail.head?.any test = false := by
    rw [h]
    exact head?_dropWhile test chars
  exact span_run List.all_takeWhile hend

theorem skip_local
    (p : Place) :
    Local (fun a b => a.skip = b) p.skip.BeginsLike p p.skip := by
  refine ⟨p.rest.takeWhile isBlank, List.takeWhile_append_dropWhile.symm, ?_⟩
  intro tail kept htail
  exact ⟨kept, congrArg (Place.mk · kept) (takeWhile_swap isBlank htail).2⟩

theorem take_local
    (h : p.peek = some c) :
    Local (fun a b => a.peek = some c ∧ a.advance = b) anyText p p.advance := by
  cases hp : p.rest with
  | nil => simp [Place.peek, hp] at h
  | cons x rest =>
      obtain rfl : x = c := by
        simpa [Place.peek, hp] using h
      exact ⟨[x], by simp [Place.advance, hp], fun tail kept _ => ⟨kept, rfl, rfl⟩⟩

theorem advance_local
    (h : p.peek = some c) :
    Local (fun a b => a.advance = b) anyText p p.advance :=
  (take_local h).mono fun _ _ hab => hab.2

/-- Scanning looks at the next character only where it stops. -/
theorem scanFrom_local
    (d : Dialect) (m : Mode) (inRun : Bool) (text : List Char) :
    ∃ window, text = window ++ (d.scanFrom m inRun text).2 ∧
      ∀ tail, tail.head? = (d.scanFrom m inRun text).2.head? →
        d.scanFrom m inRun (window ++ tail) = ((d.scanFrom m inRun text).1, tail) := by
  fun_induction d.scanFrom m inRun text with
  | case1 =>
      refine ⟨[], rfl, ?_⟩
      intro tail htail
      obtain rfl := List.head?_eq_none_iff.mp htail
      exact Dialect.scanFrom_nil _
  | case2 c hstop | case4 c next rest hstop =>
      refine ⟨[], rfl, ?_⟩
      intro tail htail
      obtain ⟨rest, rfl⟩ := List.head?_eq_some_iff.mp htail
      exact Dialect.scanFrom_stop hstop
  | case3 c hstop =>
      refine ⟨[c], rfl, ?_⟩
      intro tail htail
      obtain rfl := List.head?_eq_none_iff.mp htail
      simp [Dialect.scanFrom, hstop]
  | case5 c next rest hstop hquote ih =>
      obtain ⟨window, hrest, hlocal⟩ := ih
      refine ⟨c :: window, congrArg (c :: ·) hrest, ?_⟩
      intro tail htail
      rw [List.cons_append, Dialect.scanFrom_raw (by simpa using hstop) hquote, hlocal tail htail]
      rfl
  | case6 c rest hstop hquote ih =>
      obtain ⟨window, hrest, hlocal⟩ := ih
      obtain rfl : c = d.quote := by
        simpa using hquote
      refine ⟨d.quote :: d.quote :: window, congrArg (d.quote :: d.quote :: ·) hrest, ?_⟩
      intro tail htail
      rw [List.cons_append, List.cons_append, Dialect.scanFrom_pair (by simpa using hstop),
        hlocal tail htail]
      rfl
  | case7 c next rest hstop hquote hnext hopens ih =>
      obtain ⟨window, hrest, hlocal⟩ := ih
      obtain rfl : c = d.quote := by
        simpa using hquote
      refine ⟨d.quote :: next :: window, congrArg (d.quote :: next :: ·) hrest, ?_⟩
      intro tail htail
      rw [List.cons_append, List.cons_append,
        Dialect.scanFrom_open (by simpa using hstop) hnext hopens, hlocal tail htail]
      rfl
  | case8 c next rest hstop hquote hnext hopens ih =>
      obtain ⟨window, hrest, hlocal⟩ := ih
      obtain rfl : c = d.quote := by
        simpa using hquote
      refine ⟨d.quote :: window, congrArg (d.quote :: ·) hrest, ?_⟩
      intro tail htail
      have hhead : (window ++ tail).head? = some next := head?_append_of_like hrest htail
      rw [List.cons_append, Dialect.scanFrom_lone (by simpa using hstop) ?_, hlocal tail htail]
      · rfl
      · intro other hother
        obtain rfl : next = other := Option.some.inj (hhead.symm.trans hother)
        exact ⟨hnext, by simpa using hopens⟩
  | case9 c hquote | case10 c hquote =>
      refine ⟨[c], rfl, ?_⟩
      intro tail htail
      obtain rfl := List.head?_eq_none_iff.mp htail
      simp [Dialect.scanFrom, hquote]
  | case11 c next rest hquote ih =>
      obtain ⟨window, hrest, hlocal⟩ := ih
      refine ⟨c :: window, congrArg (c :: ·) hrest, ?_⟩
      intro tail htail
      rw [List.cons_append, Dialect.scanFrom_run_raw hquote, hlocal tail htail]
      rfl
  | case12 c rest hquote ih =>
      obtain ⟨window, hrest, hlocal⟩ := ih
      obtain rfl : c = d.quote := by
        simpa using hquote
      refine ⟨d.quote :: d.quote :: window, congrArg (d.quote :: d.quote :: ·) hrest, ?_⟩
      intro tail htail
      rw [List.cons_append, List.cons_append, Dialect.scanFrom_run_pair, hlocal tail htail]
      rfl
  | case13 c next rest hquote hnext ih =>
      obtain ⟨window, hrest, hlocal⟩ := ih
      obtain rfl : c = d.quote := by
        simpa using hquote
      refine ⟨d.quote :: window, congrArg (d.quote :: ·) hrest, ?_⟩
      intro tail htail
      have hhead : (window ++ tail).head? = some next := head?_append_of_like hrest htail
      rw [List.cons_append, Dialect.scanFrom_run_close (by simpa [hhead] using hnext),
        hlocal tail htail]

theorem scan_local
    (h : p.scan d m = (text, q)) :
    Local (fun a b => a.scan d m = (text, b)) q.BeginsLike p q := by
  obtain ⟨window, hrest, hlocal⟩ := scanFrom_local d m false p.rest
  cases h
  refine ⟨window, hrest, ?_⟩
  intro tail kept htail
  refine ⟨kept, ?_⟩
  simp only [Place.scan, Dialect.scan]
  rw [hlocal tail htail]

theorem stay_local
    (p : Place) :
    Local (fun a b => a.peek = p.peek ∧ a = b) p.BeginsLike p p :=
  ⟨[], rfl, fun _ kept htail => ⟨kept, htail, rfl⟩⟩

/-- After a step, the next character is taken. -/
theorem Local.then_take
    {step : Place → Place → Prop}
    (h : Local step q.BeginsLike p q) (hc : q.peek = some c) :
    Local (fun a e => ∃ b, step a b ∧ b.peek = some c ∧ b.advance = e) anyText p q.advance :=
  h.seq_lt (take_local hc) (Place.advance_left_lt hc)

end Steps

namespace Dialect

variable {d : Dialect} {p q start : Place} {enclosing : Enclosing} {c : Char}
  {id type word name opened selector format : String}

theorem readWord_local
    {what : Expectation} (h : d.readWord what p = .ok (word, q)) :
    Local (fun a b => d.readWord what a = .ok (word, b)) q.BeginsLike p q := by
  obtain ⟨hword, r, hscan, rfl⟩ := readWord_eq_ok_iff.mp h
  refine (((skip_local p).seq_like (scan_local hscan)).seq_like (skip_local r)).mono ?_
  rintro a e ⟨b, ⟨_, rfl, hscan⟩, hskip⟩
  exact readWord_eq_ok_iff.mpr ⟨hword, b, hscan, hskip⟩

theorem readHead_bare_local
    (h : d.readHead p = .ok (.bare id, q)) :
    Local (fun a b => d.readHead a = .ok (.bare id, b)) anyText p q := by
  obtain ⟨r, hid, hcloser, rfl⟩ := readHead_bare_iff.mp h
  refine ((readWord_local hid).then_take hcloser).mono ?_
  rintro a e ⟨b, hid, hcloser, he⟩
  exact readHead_bare_iff.mpr ⟨b, hid, hcloser, he⟩

theorem readHead_typed_local
    (h : d.readHead p = .ok (.typed id type, q)) :
    Local (fun a b => d.readHead a = .ok (.typed id type, b)) anyText p q := by
  obtain ⟨r, s, hid, hseparator, htype, hcloser, hplain, rfl⟩ := readHead_typed_iff.mp h
  refine ((((readWord_local hid).then_take hseparator).seq_any
    (readWord_local htype)).then_take hcloser).mono ?_
  rintro a e ⟨b, ⟨_, ⟨b', hid, hseparator, rfl⟩, htype⟩, hcloser, he⟩
  exact readHead_typed_iff.mpr ⟨b', b, hid, hseparator, htype, hcloser, hplain, he⟩

theorem readHead_formatted_local
    (h : d.readHead p = .ok (.formatted id type, q)) :
    Local (fun a b => d.readHead a = .ok (.formatted id type, b)) q.BeginsLike p q := by
  obtain ⟨r, s, hid, hseparator, htype, hseparator', rfl⟩ := readHead_formatted_iff.mp h
  refine ((((readWord_local hid).then_take hseparator).seq_any
    (readWord_local htype)).then_take hseparator').seq_any (skip_local s.advance) |>.mono ?_
  rintro a e ⟨_, ⟨b, ⟨_, ⟨b', hid, hseparator, rfl⟩, htype⟩, hseparator', rfl⟩, he⟩
  exact readHead_formatted_iff.mpr ⟨b', b, hid, hseparator, htype, hseparator', he⟩

theorem readFormat_local
    (h : d.readFormat p = .ok (format, q)) :
    Local (fun a b => d.readFormat a = .ok (format, b)) q.BeginsLike p q := by
  obtain ⟨hformat, text, hscan, htrim⟩ := readFormat_eq_ok_iff.mp h
  refine (scan_local hscan).mono ?_
  intro a b hscan
  exact readFormat_eq_ok_iff.mpr ⟨hformat, text, hscan, htrim⟩

theorem readCloser_local
    (h : d.readCloser p = .ok q) :
    Local (fun a b => d.readCloser a = .ok b) anyText p q := by
  obtain ⟨hcloser, rfl⟩ := readCloser_eq_ok_iff.mp h
  refine ((skip_local p).then_take hcloser).mono ?_
  rintro a e ⟨_, rfl, hcloser, he⟩
  exact readCloser_eq_ok_iff.mpr ⟨hcloser, he⟩

theorem readSelector_local
    (h : d.readSelector p = .ok (selector, q)) :
    Local (fun a b => d.readSelector a = .ok (selector, b)) anyText p q := by
  obtain ⟨hselector, r, hscan, hopener, rfl⟩ := readSelector_eq_ok_iff.mp h
  refine (((scan_local hscan).seq_like (skip_local r)).then_take hopener).mono ?_
  rintro a e ⟨_, ⟨b, hscan, rfl⟩, hopener, he⟩
  exact readSelector_eq_ok_iff.mpr ⟨hselector, b, hscan, hopener, he⟩

theorem readClosingTag_closing_local
    (h : d.readClosingTag opened start p = .ok (.closing name, q)) :
    Local (fun a b => ∀ start, d.readClosingTag opened start a = .ok (.closing name, b))
      anyText p q := by
  obtain ⟨hname, hopened, r, hscan, hcloser, rfl⟩ := readClosingTag_closing_iff.mp h
  refine ((((skip_local p).seq_like (scan_local hscan)).seq_like (skip_local r)).then_take
    hcloser).mono ?_
  rintro a e ⟨_, ⟨b, ⟨_, rfl, hscan⟩, rfl⟩, hcloser, he⟩
  intro start
  exact readClosingTag_closing_iff.mpr ⟨hname, hopened, b, hscan, hcloser, he⟩

/-- A tag has a character behind its opener. -/
theorem readTagHead_advance_lt
    {head : TagHead} (h : d.readTagHead enclosing start = .ok (head, q)) (hhead : head ≠ .text) :
    q.left < start.advance.left := by
  cases head with
  | text => exact absurd rfl hhead
  | closing name =>
      obtain ⟨hslash, opened, -, hclosing⟩ := readTagHead_closing_iff.mp h
      exact Nat.lt_of_le_of_lt (readClosingTag_follows hclosing).left_le
        (Place.advance_left_lt hslash)
  | empty name =>
      obtain ⟨-, -, r, hscan, hslash, -, rfl⟩ := readTagHead_empty_iff.mp h
      have hskip := ((scan_local hscan).seq_like (skip_local r)).follows
      exact Nat.lt_of_le_of_lt (Place.advance_follows _).left_le (hskip.advance_lt hslash)
  | opening name =>
      obtain ⟨-, -, r, hscan, hcloser, rfl⟩ := readTagHead_opening_iff.mp h
      exact ((scan_local hscan).seq_like (skip_local r)).follows.advance_lt hcloser

section Markup

variable (hstart : start.peek = some c)
include hstart

theorem readTagHead_closing_local
    (h : d.readTagHead enclosing start = .ok (.closing name, q)) :
    Local (fun a b => d.readTagHead enclosing a = .ok (.closing name, b)) anyText start q := by
  obtain ⟨hslash, opened, henclosing, hclosing⟩ := readTagHead_closing_iff.mp h
  refine (((advance_local hstart).seq_any (take_local hslash)).seq_any
    (readClosingTag_closing_local hclosing)).mono ?_
  rintro a e ⟨_, ⟨_, rfl, hslash, rfl⟩, hclosing⟩
  exact readTagHead_closing_iff.mpr ⟨hslash, opened, henclosing, hclosing a⟩

theorem readTagHead_empty_local
    (h : d.readTagHead enclosing start = .ok (.empty name, q)) :
    Local (fun a b => d.readTagHead enclosing a = .ok (.empty name, b)) anyText start q := by
  obtain ⟨hne, hname, r, hscan, hslash, hcloser, rfl⟩ := readTagHead_empty_iff.mp h
  have htag := ((((scan_local hscan).seq_like (skip_local r)).then_take hslash).seq_any
    (take_local hcloser)).peek_of_lt (readTagHead_advance_lt h nofun)
  refine ((advance_local hstart).seq_any htag).mono ?_
  rintro a e ⟨_, rfl, hpeek, _, ⟨_, ⟨b, hscan, rfl⟩, hslash, rfl⟩, hcloser, he⟩
  exact readTagHead_empty_iff.mpr ⟨hpeek ▸ hne, hname, b, hscan, hslash, hcloser, he⟩

theorem readTagHead_opening_local
    (h : d.readTagHead enclosing start = .ok (.opening name, q)) :
    Local (fun a b => d.readTagHead enclosing a = .ok (.opening name, b)) anyText start q := by
  obtain ⟨hne, hname, r, hscan, hcloser, rfl⟩ := readTagHead_opening_iff.mp h
  have htag := (((scan_local hscan).seq_like (skip_local r)).then_take hcloser).peek_of_lt
    (readTagHead_advance_lt h nofun)
  refine ((advance_local hstart).seq_any htag).mono ?_
  rintro a e ⟨_, rfl, hpeek, _, ⟨b, hscan, rfl⟩, hcloser, he⟩
  exact readTagHead_opening_iff.mpr ⟨hpeek ▸ hne, hname, b, hscan, hcloser, he⟩

theorem readTagHead_text_local
    (h : d.readTagHead enclosing start = .ok (.text, q)) :
    Local (fun a b => d.readTagHead enclosing a = .ok (.text, b)) q.BeginsLike start q := by
  rcases readTagHead_text_iff.mp h with
    ⟨hslash, opened, henclosing, hscan⟩ | ⟨hne, hscan | ⟨name, r, hscan, hname, hkept⟩⟩
  · refine ((((advance_local hstart).seq_any (take_local hslash)).seq_any
      (skip_local _)).seq_like (scan_local hscan)).mono ?_
    rintro a e ⟨_, ⟨_, ⟨_, rfl, hslash, rfl⟩, rfl⟩, hscan⟩
    exact readTagHead_text_iff.mpr (Or.inl ⟨hslash, opened, henclosing, hscan⟩)
  · refine ((advance_local hstart).seq_any (scan_local hscan).peek_of_like).mono ?_
    rintro a e ⟨_, rfl, hpeek, hscan⟩
    exact readTagHead_text_iff.mpr (Or.inr ⟨hpeek ▸ hne, Or.inl hscan⟩)
  · have hskip := (scan_local hscan).seq_like (skip_local r)
    rcases hkept with ⟨hslash, hcloser, rfl⟩ | ⟨hslash, hcloser, rfl⟩
    · have htag := ((hskip.then_take hslash).seq_any (stay_local _)).peek_of_like
      refine (((advance_local hstart).seq_any htag).keep start).imp ?_
      rintro a e ⟨_, rfl, hpeek, _, ⟨_, ⟨b, hscan, rfl⟩, hslash, rfl⟩, hnext, rfl⟩
      exact ⟨_, readTagHead_text_iff.mpr (Or.inr ⟨hpeek ▸ hne,
        Or.inr ⟨name, b, hscan, hname, Or.inl ⟨hslash, hnext ▸ hcloser, rfl⟩⟩⟩)⟩
    · have htag := (hskip.seq_like (stay_local _)).peek_of_like
      refine (((advance_local hstart).seq_any htag).keep start).imp ?_
      rintro a e ⟨_, rfl, hpeek, _, ⟨b, hscan, rfl⟩, hnext, rfl⟩
      exact ⟨_, readTagHead_text_iff.mpr (Or.inr ⟨hpeek ▸ hne,
        Or.inr ⟨name, b, hscan, hname, Or.inr ⟨hnext ▸ hslash, hnext ▸ hcloser, rfl⟩⟩⟩)⟩

end Markup

section Offsets

variable {offset : Option Int} {n : Int} {numeral : Numeral}

theorem read_of_isDigit
    {c : Char} (hc : c.isDigit = true) (rest : List Char) :
    Numeral.read (c :: rest) =
      (⟨false, (c :: rest).takeWhile Char.isDigit⟩, (c :: rest).dropWhile Char.isDigit) := by
  have hsign {sign : Char} (hsign : sign.isDigit = false) : c ≠ sign := by
    rintro rfl
    simp [hc] at hsign
  exact Numeral.read_unsigned (hsign rfl) (hsign rfl)

/-- A numeral with a digit ends before a character that is none. -/
theorem numeral_local
    (h : Numeral.read p.rest = (numeral, q.rest)) (hdigits : numeral.digits ≠ []) :
    Local (fun a b => Numeral.read a.rest = (numeral, b.rest)) q.BeginsLike p q := by
  have hswap (text : List Char) (hleft : text.dropWhile Char.isDigit = q.rest) (tail : List Char)
      (htail : q.BeginsLike tail) :
      (text.takeWhile Char.isDigit ++ tail).takeWhile Char.isDigit =
          text.takeWhile Char.isDigit ∧
        (text.takeWhile Char.isDigit ++ tail).dropWhile Char.isDigit = tail :=
    takeWhile_swap Char.isDigit (htail.trans (congrArg List.head? hleft.symm))
  unfold Numeral.read at h
  split at h
  · next rest hrest =>
      obtain ⟨rfl, hleft⟩ := Prod.mk.inj h
      refine ⟨'-' :: rest.takeWhile Char.isDigit, by simp [hrest, ← hleft], ?_⟩
      intro tail kept htail
      obtain ⟨htake, hdrop⟩ := hswap rest hleft tail htail
      exact ⟨kept, by simp [Numeral.read, htake, hdrop]⟩
  · next rest hrest =>
      obtain ⟨rfl, hleft⟩ := Prod.mk.inj h
      refine ⟨'+' :: rest.takeWhile Char.isDigit, by simp [hrest, ← hleft], ?_⟩
      intro tail kept htail
      obtain ⟨htake, hdrop⟩ := hswap rest hleft tail htail
      exact ⟨kept, by simp [Numeral.read, htake, hdrop]⟩
  · obtain ⟨rfl, hleft⟩ := Prod.mk.inj h
    refine ⟨p.rest.takeWhile Char.isDigit, by simp [← hleft], ?_⟩
    intro tail kept htail
    obtain ⟨htake, hdrop⟩ := hswap p.rest hleft tail htail
    obtain ⟨c, digits, hcons⟩ : ∃ c digits, p.rest.takeWhile Char.isDigit = c :: digits :=
      List.exists_cons_of_ne_nil hdigits
    have hc : c.isDigit = true :=
      List.all_eq_true.mp List.all_takeWhile c (by rw [hcons]; exact List.mem_cons_self)
    refine ⟨kept, ?_⟩
    rw [hcons] at htake hdrop ⊢
    rw [List.cons_append] at htake hdrop
    dsimp only
    rw [List.cons_append, read_of_isDigit hc, htake, hdrop]

theorem readNumber_offset_iff
    {rest left : List Char} :
    readNumber rest = .offset n left
      ↔
    ∃ numeral, Numeral.read (skipBlanks rest) = (numeral, left) ∧ numeral.digits ≠ [] ∧
      numeral.digits.length ≤ maxDigits ∧ numeral.value = n := by
  simp only [readNumber, Seam.across?_none, numberClause]
  generalize Numeral.read (skipBlanks rest) = read
  obtain ⟨numeral, after⟩ := read
  grind

theorem readNumber_local
    (h : readNumber p.rest = .offset n q.rest) :
    Local (fun a b => readNumber a.rest = .offset n b.rest) q.BeginsLike p q := by
  obtain ⟨numeral, hread, hdigits, hlength, hvalue⟩ := readNumber_offset_iff.mp h
  refine ((skip_local p).seq_like (numeral_local hread hdigits)).mono ?_
  rintro a e ⟨_, rfl, hread⟩
  exact readNumber_offset_iff.mpr ⟨numeral, hread, hdigits, hlength, hvalue⟩

theorem readOffset_offset_iff
    {text left : List Char} :
    d.readOffset text = .offset n left
      ↔
    ∃ rest, text = d.offsetKeyword.toList ++ rest ∧ readNumber rest = .offset n left := by
  unfold readOffset
  rw [Seam.near_none]
  split
  · next hkeyword =>
      obtain ⟨rest, rfl⟩ := List.isPrefixOf_iff_prefix.mp hkeyword
      simp
  · next hkeyword =>
      simp only [reduceCtorEq, false_iff]
      rintro ⟨rest, rfl, -⟩
      exact hkeyword (List.isPrefixOf_iff_prefix.mpr (List.prefix_append _ _))

theorem readOffset_absent_iff
    {text : List Char} :
    d.readOffset text = .absent ↔ ¬ d.offsetKeyword.toList <+: text := by
  rw [← List.isPrefixOf_iff_prefix, readOffset, Seam.near_none]
  split
  · next hkeyword => simp [hkeyword, readNumber_ne_absent]
  · next hkeyword => simp [hkeyword]

theorem readOffsetClause_some_iff :
    d.readOffsetClause type p = .ok (some n, q)
      ↔
    d.isNumeric type = true ∧ ∃ left, d.readOffset p.rest = .offset n left ∧
      Place.skip { p with rest := left } = q := by
  unfold readOffsetClause readOffsetNumber
  cases d.readOffset p.rest <;> simp [offsetResult, Place.expected] <;> grind

theorem readOffsetClause_none_iff :
    d.readOffsetClause type p = .ok (none, q)
      ↔
    (d.isNumeric type = true → ¬ d.offsetKeyword.toList <+: p.rest) ∧ p = q := by
  rw [← readOffset_absent_iff]
  unfold readOffsetClause readOffsetNumber
  cases d.readOffset p.rest <;> simp [offsetResult, Place.expected] <;> grind

/-- Where no offset is given, the text has to go on without the keyword. -/
theorem readOffsetClause_local
    (h : d.readOffsetClause type p = .ok (offset, q)) :
    Local (fun a b => d.readOffsetClause type a = .ok (offset, b))
      (fun tail => q.BeginsLike tail ∧
        (d.offsetKeyword.toList <+: tail → d.offsetKeyword.toList <+: q.rest)) p q := by
  cases offset with
  | none =>
      obtain ⟨habsent, rfl⟩ := readOffsetClause_none_iff.mp h
      refine ⟨[], rfl, ?_⟩
      intro tail kept htail
      refine ⟨kept, readOffsetClause_none_iff.mpr ⟨?_, rfl⟩⟩
      intro hnumeric hkeyword
      exact habsent hnumeric (htail.2 hkeyword)
  | some n =>
      obtain ⟨hnumeric, left, hoffset, rfl⟩ := readOffsetClause_some_iff.mp h
      obtain ⟨rest, hrest, hnumber⟩ := readOffset_offset_iff.mp hoffset
      have hkeyword : Local (fun a b => a.rest = d.offsetKeyword.toList ++ b.rest) anyText
          p { p with rest := rest } :=
        ⟨d.offsetKeyword.toList, hrest, fun tail kept _ => ⟨kept, rfl⟩⟩
      have hclause := (hkeyword.seq_any
        (readNumber_local (q := { p with rest := left }) hnumber)).seq_like (skip_local _)
      refine (hclause.imp ?_).weaken fun _ htail => htail.1
      rintro a e ⟨b, ⟨k, hrest, hnumber⟩, rfl⟩
      have hoffset := readOffset_offset_iff.mpr ⟨k.rest, hrest, hnumber⟩
      exact ⟨a.kept, readOffsetClause_some_iff.mpr ⟨hnumeric, b.rest, hoffset, rfl⟩⟩

end Offsets

end Dialect

end MessageFormat
