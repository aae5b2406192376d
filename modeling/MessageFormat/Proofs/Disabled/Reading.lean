import MessageFormat.Proofs.Derivation.Refusals
import MessageFormat.Proofs.Exits

/-!
# Reading looks only at what is switched on

A dialect may do without tags, and without numeric types. Two dialects agree if they differ at most
in what spells such a feature (`Dialect.Agrees`). Then no reader of a header tells them apart, and
every derivation in one dialect is one in the other (`Reads.speaking`, `Fails.speaking`).

One test names a sign that may be switched off without asking whether it is: a reference sign is
told from a tag opener before it is asked what number it stands for. Where there is no number,
the test can be left out, because the two signs are different (`atom?_of_referent_none`).
-/

namespace MessageFormat

namespace Dialect

/-- What is switched on in a dialect is spelled in the same way in another one. -/
structure Agrees (d d' : Dialect) : Prop where
  opener : d.opener = d'.opener
  closer : d.closer = d'.closer
  separator : d.separator = d'.separator
  quote : d.quote = d'.quote
  numericTypes : d.numericTypes = d'.numericTypes
  branchingTypes : d.branchingTypes = d'.branchingTypes
  tagsAllowed : d.tagsAllowed = d'.tagsAllowed
  tags : d.tagsAllowed = true →
    d.tagOpener = d'.tagOpener ∧ d.tagCloser = d'.tagCloser ∧ d.tagSlash = d'.tagSlash
  numbers : d.numericTypes ≠ [] →
    d.reference = d'.reference ∧ d.offsetKeyword = d'.offsetKeyword

/-- A mode that a dialect has a use for: references are known only where there are numbers. -/
def Uses (d : Dialect) (m : Mode) : Prop :=
  m.references = true → d.numericTypes ≠ []

theorem uses_of_references
    {m : Mode} (h : m.references = false) (d : Dialect) :
    d.Uses m := by
  intro hknown
  simp [h] at hknown

theorem numericTypes_ne_nil
    {d : Dialect} {type : String} (h : d.isNumeric type = true) :
    d.numericTypes ≠ [] := by
  intro hnil
  simp [isNumeric, hnil] at h

namespace Agrees

variable {d d' : Dialect} (h : d.Agrees d') {m : Mode}
include h

theorem isNumeric_eq
    (type : String) :
    d'.isNumeric type = d.isNumeric type := by
  rw [isNumeric, isNumeric, h.numericTypes]

theorem isBranching_eq
    (type : String) :
    d'.isBranching type = d.isBranching type := by
  rw [isBranching, isBranching, h.branchingTypes]

theorem isMark_eq
    (hm : d.Uses m) :
    d.isMark m = d'.isMark m := by
  funext c
  have htags : (d.tagsAllowed &&
        (c == d.tagOpener || (m.tagEnds && (c == d.tagCloser || c == d.tagSlash)))) =
      (d'.tagsAllowed &&
        (c == d'.tagOpener || (m.tagEnds && (c == d'.tagCloser || c == d'.tagSlash)))) := by
    rw [← h.tagsAllowed]
    cases hallowed : d.tagsAllowed with
    | false => rfl
    | true =>
        obtain ⟨hopener, hcloser, hslash⟩ := h.tags hallowed
        rw [hopener, hcloser, hslash]
  have hreferences : (m.references && c == d.reference) = (m.references && c == d'.reference) := by
    cases hknown : m.references with
    | false => rfl
    | true => rw [(h.numbers (hm hknown)).1]
  rw [isMark, isMark, h.opener, h.closer, htags, hreferences]

theorem stops_eq
    (hm : d.Uses m) :
    d.stops m = d'.stops m := by
  funext c
  rw [stops, stops, h.isMark_eq hm, h.separator]

theorem opensRun_eq
    (hm : d.Uses m) :
    d.opensRun m = d'.opensRun m := by
  funext c
  rw [opensRun, opensRun, h.isMark_eq hm]

theorem scanFrom_eq
    (hm : d.Uses m) (inRun : Bool) (text : List Char) :
    d.scanFrom m inRun text = d'.scanFrom m inRun text := by
  have hstops := h.stops_eq hm
  have hopens := h.opensRun_eq hm
  have hquote := h.quote
  fun_induction scanFrom d m inRun text <;> simp_all [scanFrom]

theorem scan_eq
    (hm : d.Uses m) (p : Place) :
    p.scan d m = p.scan d' m := by
  rw [Place.scan, Place.scan, Dialect.scan, Dialect.scan, h.scanFrom_eq hm]

theorem readWord_eq
    (what : Expectation) (p : Place) :
    d'.readWord what p = d.readWord what p := by
  rw [readWord, readWord, h.scan_eq (m := .word) (uses_of_references rfl d)]

theorem readHead_eq
    (p : Place) :
    d'.readHead p = d.readHead p := by
  simp only [readHead, h.readWord_eq, h.closer, h.separator, h.isBranching_eq]

/-- Without numeric types, no offset is looked for. -/
theorem readOffsetClause_eq
    (type : String) (p : Place) (seam : Seam) :
    d'.readOffsetClause type p seam = d.readOffsetClause type p seam := by
  cases hnumeric : d.isNumeric type with
  | false =>
      have hnumeric' := h.isNumeric_eq type ▸ hnumeric
      simp [readOffsetClause, hnumeric, hnumeric']
  | true =>
      have hnumeric' := h.isNumeric_eq type ▸ hnumeric
      obtain ⟨-, hkeyword⟩ := h.numbers (numericTypes_ne_nil hnumeric)
      simp only [readOffsetClause, hnumeric, hnumeric', readOffsetNumber, readOffset, hkeyword]

theorem readFormat_eq
    (p : Place) :
    d'.readFormat p = d.readFormat p := by
  rw [readFormat, readFormat, h.scan_eq (m := .body) (uses_of_references rfl d)]

theorem readCloser_eq
    (p : Place) :
    d'.readCloser p = d.readCloser p := by
  rw [readCloser, readCloser, h.closer]

theorem readSelector_eq
    (p : Place) :
    d'.readSelector p = d.readSelector p := by
  rw [readSelector, readSelector, h.scan_eq (m := .selector) (uses_of_references rfl d), h.opener]

/-- Where tags are allowed, they are spelled in the same way. -/
theorem readTagHead_eq
    (htags : d.tagsAllowed = true) (enclosing : Enclosing) (p : Place) :
    d'.readTagHead enclosing p = d.readTagHead enclosing p := by
  obtain ⟨-, hcloser, hslash⟩ := h.tags htags
  have hscan (p : Place) : p.scan d .tagName = p.scan d' .tagName :=
    h.scan_eq (uses_of_references rfl d) p
  simp only [readTagHead, readClosingTag, hscan, hcloser, hslash]

end Agrees

end Dialect

/-- Markup is read only where tags are allowed. -/
def Rule.Used (d : Dialect) : Rule → Prop
  | .markup => d.tagsAllowed = true
  | _ => True

namespace Context

/-- The same context in another dialect. -/
def speaking (cx : Context) (d : Dialect) : Context :=
  { cx with dialect := d }

variable {cx inner : Context} {d : Dialect} {p q : Place} (h : cx.dialect.Agrees d)

theorem dialect_of_enter
    {enclosing : Enclosing} (henter : cx.enter? enclosing = some inner) :
    inner.dialect = cx.dialect := by
  obtain ⟨-, rfl⟩ := enter?_eq_some henter
  rfl

theorem enter?_speaking
    {enclosing : Enclosing} (henter : cx.enter? enclosing = some inner) (d : Dialect) :
    (cx.speaking d).enter? enclosing = some (inner.speaking d) := by
  obtain ⟨hlt, rfl⟩ := enter?_eq_some henter
  have hfull : (cx.speaking d).depth < (cx.speaking d).limit := hlt
  exact enter?_of_lt hfull enclosing

theorem enter?_none_speaking
    {enclosing : Enclosing} (henter : cx.enter? enclosing = none) (d : Dialect) :
    (cx.speaking d).enter? enclosing = none := by
  unfold enter? at henter ⊢
  split at henter
  · next hfull => exact if_pos hfull
  · cases henter

include h

theorem referent_speaking :
    (cx.speaking d).referent = cx.referent := by
  unfold referent speaking
  cases cx.enclosing with
  | placeholder id type => simp only [h.isNumeric_eq type]
  | nothing => rfl
  | tag name => rfl

theorem mode_speaking :
    (cx.speaking d).mode = cx.mode := by
  rw [mode, mode, referent_speaking h]

omit h in
/-- References are known only where the type of a placeholder is numeric. -/
theorem numericTypes_of_referent
    {id : String} (hreferent : cx.referent = some id) :
    cx.dialect.numericTypes ≠ [] := by
  unfold referent at hreferent
  split at hreferent
  · next type _ =>
      split at hreferent
      · next hnumeric => exact Dialect.numericTypes_ne_nil hnumeric
      · cases hreferent
  · cases hreferent

omit h in
theorem uses_mode :
    cx.dialect.Uses cx.mode := by
  intro hreferences
  cases hreferent : cx.referent with
  | none => simp [mode, hreferent, Mode.body] at hreferences
  | some id => exact numericTypes_of_referent hreferent

theorem stops_mode_speaking
    (c : Char) :
    d.stops (cx.speaking d).mode c = cx.dialect.stops cx.mode c := by
  rw [mode_speaking h, h.stops_eq uses_mode]

theorem scan_mode_speaking
    (p : Place) :
    p.scan d (cx.speaking d).mode = p.scan cx.dialect cx.mode := by
  rw [mode_speaking h, h.scan_eq uses_mode]

theorem endsBody_speaking
    (c : Char) :
    (cx.speaking d).endsBody c = cx.endsBody c := by
  rw [endsBody, endsBody, speaking, h.closer]

omit h in
/-- Where no references are known, the reference sign is as good as any other character. -/
theorem atom?_of_referent_none
    (hreferent : cx.referent = none) (c : Char) (next : Option Char) :
    cx.atom? c next =
      if c = cx.dialect.closer then
        some (.text c.toString)
      else if cx.dialect.tagsAllowed && c == cx.dialect.tagOpener && next.any isBlank then
        some (.text c.toString)
      else
        none := by
  have hne : cx.dialect.reference ≠ cx.dialect.tagOpener := cx.dialect.char_ne .reference .tagOpener
  by_cases href : c = cx.dialect.reference
  · simp [atom?, hreferent, href, hne]
  · simp [atom?, href]

theorem atom?_speaking
    (c : Char) (next : Option Char) :
    (cx.speaking d).atom? c next = cx.atom? c next := by
  have hreferent := referent_speaking h
  have htagOpener : (d.tagsAllowed && c == d.tagOpener) =
      (cx.dialect.tagsAllowed && c == cx.dialect.tagOpener) := by
    rw [← h.tagsAllowed]
    cases htags : cx.dialect.tagsAllowed with
    | false => rfl
    | true => rw [(h.tags htags).1]
  cases hknown : cx.referent with
  | none =>
      rw [atom?_of_referent_none hknown, atom?_of_referent_none (hreferent.trans hknown), h.closer]
      simp only [speaking, htagOpener]
  | some id =>
      obtain ⟨hreference, -⟩ := h.numbers (numericTypes_of_referent hknown)
      simp only [atom?, hreferent, h.closer, hreference]
      simp only [speaking, htagOpener]

/-- What is read is read in every dialect that agrees. -/
theorem Reads.speaking
    {x : Reading} (hreads : Reads cx p x q) (hused : x.rule.Used cx.dialect) :
    Reads (cx.speaking d) p x q := by
  induction hreads with
  | bodyAtEnd hpeek => exact .bodyAtEnd hpeek
  | bodyEnded hpeek hends => exact .bodyEnded hpeek ((endsBody_speaking h _).trans hends)
  | bodyClosed hpeek hends hpiece ih =>
      exact .bodyClosed hpeek ((endsBody_speaking h _).trans hends) (ih h trivial)
  | bodyNode hpeek hends hpiece hbody ihpiece ihbody =>
      exact .bodyNode hpeek ((endsBody_speaking h _).trans hends) (ihpiece h trivial)
        (ihbody h trivial)
  | atom hatom => exact .atom ((atom?_speaking h _ _).trans hatom)
  | opened hatom hopener hnode ih =>
      exact .opened ((atom?_speaking h _ _).trans hatom) (hopener.trans h.opener) (ih h trivial)
  | marked hatom htags hopener hmarkup ih =>
      exact .marked ((atom?_speaking h _ _).trans hatom) (h.tagsAllowed ▸ htags)
        (hopener.trans (h.tags htags).1) (ih h htags)
  | @text cx p c hraw =>
      have hraw : (cx.speaking d).dialect.stops (cx.speaking d).mode c = false :=
        (stops_mode_speaking h c).trans hraw
      have htext := Reads.text (p := p) hraw
      rwa [show (cx.speaking d).dialect = d from rfl, scan_mode_speaking h p] at htext
  | bare hhead => exact .bare ((h.readHead_eq _).trans hhead)
  | typed hhead => exact .typed ((h.readHead_eq _).trans hhead)
  | formatted hhead hoffset hplain hformat hcloser =>
      exact .formatted ((h.readHead_eq _).trans hhead)
        ((h.readOffsetClause_eq _ _ _).trans hoffset)
        ((h.isBranching_eq _).trans hplain) ((h.readFormat_eq _).trans hformat)
        ((h.readCloser_eq _).trans hcloser)
  | branching hhead hoffset hbranching henter hsubs hcomplete hcloser ih =>
      exact .branching ((h.readHead_eq _).trans hhead)
        ((h.readOffsetClause_eq _ _ _).trans hoffset)
        ((h.isBranching_eq _).trans hbranching) (enter?_speaking henter d)
        (ih (dialect_of_enter henter ▸ h) trivial) hcomplete
        ((h.readCloser_eq _).trans hcloser)
  | entriesEnded hpeek => exact .entriesEnded (h.closer ▸ hpeek)
  | entry hpeek hselector hbody hcloser hsubs ihbody ihsubs =>
      exact .entry (h.closer ▸ hpeek) ((h.readSelector_eq _).trans hselector)
        (ihbody h trivial) (h.closer ▸ hcloser) (ihsubs h trivial)
  | keptMarkup hhead => exact .keptMarkup ((h.readTagHead_eq hused _ _).trans hhead)
  | closingTag hhead => exact .closingTag ((h.readTagHead_eq hused _ _).trans hhead)
  | emptyTag hhead => exact .emptyTag ((h.readTagHead_eq hused _ _).trans hhead)
  | tag hhead henter hbody hclosed ih =>
      exact .tag ((h.readTagHead_eq hused _ _).trans hhead) (enter?_speaking henter d)
        (ih (dialect_of_enter henter ▸ h) trivial) hclosed

/-- What is refused is refused in the same way. -/
theorem Fails.speaking
    {rule : Rule} {f : Failure} (hfails : Fails cx p rule f) (hused : rule.Used cx.dialect) :
    Fails (cx.speaking d) p rule f := by
  induction hfails with
  | piece hpeek hends hpiece ih =>
      exact .piece hpeek ((endsBody_speaking h _).trans hends) (ih h trivial)
  | rest hpeek hends hpiece hrest ih =>
      exact .rest hpeek ((endsBody_speaking h _).trans hends) (hpiece.speaking h trivial)
        (ih h trivial)
  | opened hatom hopener hnode ih =>
      exact .opened ((atom?_speaking h _ _).trans hatom) (hopener.trans h.opener) (ih h trivial)
  | marked hatom htags hopener hmarkup ih =>
      exact .marked ((atom?_speaking h _ _).trans hatom) (h.tagsAllowed ▸ htags)
        (hopener.trans (h.tags htags).1) (ih h htags)
  | head hhead => exact .head ((h.readHead_eq _).trans hhead)
  | offset hhead hoffset =>
      exact .offset ((h.readHead_eq _).trans hhead)
        ((h.readOffsetClause_eq _ _ _).trans hoffset)
  | format hhead hoffset hplain hformat =>
      exact .format ((h.readHead_eq _).trans hhead)
        ((h.readOffsetClause_eq _ _ _).trans hoffset)
        ((h.isBranching_eq _).trans hplain) ((h.readFormat_eq _).trans hformat)
  | formatCloser hhead hoffset hplain hformat hcloser =>
      exact .formatCloser ((h.readHead_eq _).trans hhead)
        ((h.readOffsetClause_eq _ _ _).trans hoffset)
        ((h.isBranching_eq _).trans hplain) ((h.readFormat_eq _).trans hformat)
        ((h.readCloser_eq _).trans hcloser)
  | placeholderTooDeep hhead hoffset hbranching henter =>
      exact .placeholderTooDeep ((h.readHead_eq _).trans hhead)
        ((h.readOffsetClause_eq _ _ _).trans hoffset)
        ((h.isBranching_eq _).trans hbranching) (enter?_none_speaking henter d)
  | submessages hhead hoffset hbranching henter hsubs ih =>
      exact .submessages ((h.readHead_eq _).trans hhead)
        ((h.readOffsetClause_eq _ _ _).trans hoffset)
        ((h.isBranching_eq _).trans hbranching) (enter?_speaking henter d)
        (ih (dialect_of_enter henter ▸ h) trivial)
  | incomplete hhead hoffset hbranching henter hsubs hincomplete =>
      exact .incomplete ((h.readHead_eq _).trans hhead)
        ((h.readOffsetClause_eq _ _ _).trans hoffset)
        ((h.isBranching_eq _).trans hbranching) (enter?_speaking henter d)
        (hsubs.speaking (dialect_of_enter henter ▸ h) trivial) hincomplete
  | branchingCloser hhead hoffset hbranching henter hsubs hcomplete hcloser =>
      exact .branchingCloser ((h.readHead_eq _).trans hhead)
        ((h.readOffsetClause_eq _ _ _).trans hoffset)
        ((h.isBranching_eq _).trans hbranching) (enter?_speaking henter d)
        (hsubs.speaking (dialect_of_enter henter ▸ h) trivial) hcomplete
        ((h.readCloser_eq _).trans hcloser)
  | selector hpeek hselector =>
      exact .selector (h.closer ▸ hpeek) ((h.readSelector_eq _).trans hselector)
  | entryBody hpeek hselector hbody ih =>
      exact .entryBody (h.closer ▸ hpeek) ((h.readSelector_eq _).trans hselector)
        (ih h trivial)
  | entryCloser hpeek hselector hbody hcloser =>
      rw [h.closer] at hpeek hcloser ⊢
      exact .entryCloser hpeek ((h.readSelector_eq _).trans hselector)
        (hbody.speaking h trivial) hcloser
  | laterEntry hpeek hselector hbody hcloser hsubs ih =>
      exact .laterEntry (h.closer ▸ hpeek) ((h.readSelector_eq _).trans hselector)
        (hbody.speaking h trivial) (h.closer ▸ hcloser) (ih h trivial)
  | tagHead hhead => exact .tagHead ((h.readTagHead_eq hused _ _).trans hhead)
  | tagTooDeep hhead henter =>
      exact .tagTooDeep ((h.readTagHead_eq hused _ _).trans hhead)
        (enter?_none_speaking henter d)
  | tagBody hhead henter hbody ih =>
      exact .tagBody ((h.readTagHead_eq hused _ _).trans hhead) (enter?_speaking henter d)
        (ih (dialect_of_enter henter ▸ h) trivial)
  | tagUnclosed hhead henter hbody hopen =>
      exact .tagUnclosed ((h.readTagHead_eq hused _ _).trans hhead)
        (enter?_speaking henter d) (hbody.speaking (dialect_of_enter henter ▸ h) trivial) hopen

end Context

/-- A reader in a dialect that agrees reads the same. -/
theorem Reader.read_speaking
    {r : Reader} {d : Dialect} (h : r.dialect.Agrees d) (text : List Char) :
    { r with dialect := d }.read text = r.read text := by
  cases hread : r.read text with
  | ok result =>
      obtain ⟨m, p⟩ := result
      obtain ⟨hsize, closed, hreads⟩ := read_eq_ok_iff.mp hread
      exact read_eq_ok_iff.mpr ⟨hsize, closed, hreads.speaking h trivial⟩
  | error fault =>
      rcases read_eq_error hread with ⟨hsize, rfl⟩ | ⟨f, hfails, rfl⟩
      · unfold Refuses at hsize
        rw [read, if_pos hsize]
      · obtain ⟨hsize, _⟩ := read_eq_failure_iff.mp hread
        exact read_eq_failure_iff.mpr ⟨hsize, hfails.speaking h trivial⟩

theorem Reader.readValue_speaking
    {r : Reader} {d : Dialect} (h : r.dialect.Agrees d) (v : Value) :
    { r with dialect := d }.readValue v = r.readValue v := by
  simp only [readValue, read_speaking h]

end MessageFormat
