import MessageFormat.Proofs.Derivation.Inversion
import MessageFormat.Proofs.Locality
import MessageFormat.Proofs.Spacing.Offsets

/-!
# Blanks between the parts of a placeholder

A placeholder is laid out as an id, as an id and a type, with a format behind them, or with
sub-messages and maybe an offset (`Layout`). Between its parts there may be blanks. If one text of a
layout is read as a placeholder, then so is every other, as the same node
(`Context.readFragment_spaced`).

The blanks do matter in one place: an offset goes on as long as digits follow. So the gap behind it
has to be filled if the first selector starts with a digit
(`Context.not_readFragment_spaced_waived`).
-/

namespace MessageFormat

/-- What is written for a sub-message: its selector and its body. -/
structure Entry where
  selector : List Char
  body : List Char
deriving DecidableEq

/-- What is written in a placeholder, apart from delimiters and the blanks between the parts. -/
inductive Layout where
  | bare (id : List Char)
  | typed (id type : List Char)
  | formatted (id type format : List Char)
  | branching (id type : List Char) (number : Option (List Char)) (entries : List Entry)
deriving DecidableEq

/-- The parts of sub-messages, in front of other parts. -/
def entriesParts (d : Dialect) (entries : List Entry) (parts : List Part) : List Part :=
  match entries with
  | [] => parts
  | e :: entries =>
      .raw e.selector :: .gap false :: .raw [d.opener] :: .raw e.body :: .raw [d.closer] ::
        .gap false :: entriesParts d entries parts

/-- The first selector starts with a digit. -/
def startsWithDigit (entries : List Entry) : Bool :=
  entries.head?.any fun e => e.selector.head?.any Char.isDigit

namespace Layout

/-- The parts between the separator behind the type and the closer. -/
def contentParts (d : Dialect) (number : Option (List Char)) (entries : List Entry) : List Part :=
  match number with
  | none => entriesParts d entries [.raw [d.closer]]
  | some number =>
      .raw d.offsetKeyword.toList :: .gap false :: .raw number :: .gap (startsWithDigit entries) ::
        entriesParts d entries [.raw [d.closer]]

/-- The parts behind the opener. -/
def inside (d : Dialect) : Layout → List Part
  | bare id => wordParts id [.raw [d.closer]]
  | typed id type => wordParts id (.raw [d.separator] :: wordParts type [.raw [d.closer]])
  | formatted id type format =>
      wordParts id (.raw [d.separator] :: wordParts type (.raw [d.separator] :: .gap false ::
        [.raw format, .gap false, .raw [d.closer]]))
  | branching id type number entries =>
      wordParts id (.raw [d.separator] :: wordParts type (.raw [d.separator] :: .gap false ::
        contentParts d number entries))

/-- The parts of a placeholder. -/
def parts (d : Dialect) (layout : Layout) : List Part :=
  .raw [d.opener] :: layout.inside d

end Layout

/-- A body is read whole in front of a closer. -/
def Context.TakesBody (cx : Context) (text : List Char) : Prop :=
  ∃ rest,
    (cx.readFragment .body ⟨String.ofList (text ++ cx.dialect.closer :: rest), 0⟩).outcome.map
      (·.pos) = .ok (text.length : Int)

/-- A sub-message is made of texts that are read whole. -/
structure Entry.Fits (cx : Context) (e : Entry) : Prop where
  selector : cx.dialect.Takes .selector e.selector
  body : cx.TakesBody e.body

/-- A placeholder is made of texts that are read whole, and its form goes with its type. -/
def Layout.Fits (cx : Context) : Layout → Prop
  | bare id => cx.dialect.Takes .word id
  | typed id type => cx.dialect.Takes .word id ∧ cx.dialect.Takes .word type
  | formatted id type format =>
      cx.dialect.Takes .word id ∧ cx.dialect.Takes .word type ∧
        cx.dialect.isBranching (cx.dialect.meaning .word type) = false ∧
        (∃ c, format.head? = some c ∧ isBlank c = false) ∧ cx.dialect.Takes .body format
  | branching id type number entries =>
      cx.dialect.Takes .word id ∧ cx.dialect.Takes .word type ∧
        cx.dialect.isBranching (cx.dialect.meaning .word type) = true ∧
        (∀ text ∈ number,
          cx.dialect.isNumeric (cx.dialect.meaning .word type) = true ∧ IsNumber text) ∧
        ∀ inner, cx.enter? (.placeholder (cx.dialect.meaning .word id)
          (cx.dialect.meaning .word type)) = some inner → ∀ e ∈ entries, e.Fits inner

section Parts

variable {d : Dialect} {m : Mode} {entries : List Entry} {parts : List Part} {text : List Char}

/-- The blanks in front of sub-messages may be skipped. -/
theorem skippable_entriesParts
    (hd : d.Visible) (hentries : ∀ e ∈ entries, d.Takes .selector e.selector)
    (hparts : Skippable parts) :
    Skippable (entriesParts d entries parts) := by
  cases entries with
  | nil => exact hparts
  | cons e entries =>
      have hopener {parts : List Part} : Skippable (.raw [d.opener] :: parts) :=
        .raw_cons (hd .opener) []
      exact (hentries e List.mem_cons_self).skippable rfl hopener.gap

/-- So may those in front of an offset. -/
theorem skippable_contentParts
    {number : Option (List Char)} (hd : d.Spaced) (hnumber : ∀ text ∈ number, IsNumber text)
    (hentries : ∀ e ∈ entries, d.Takes .selector e.selector) :
    Skippable (Layout.contentParts d number entries) := by
  cases number with
  | none => exact skippable_entriesParts hd.visible hentries (.raw_cons (hd.visible .closer) [])
  | some number =>
      have hgap {parts : List Part} : Skippable (.gap false :: .raw number :: parts) :=
        (hnumber number rfl).skippable.gap
      cases hkeyword : d.offsetKeyword.toList with
      | nil => simpa [Layout.contentParts, hkeyword] using hgap.raw_nil
      | cons c keyword =>
          have hc : isBlank c = false := (hd.keyword c (by simp [hkeyword])).1
          simpa [Layout.contentParts, hkeyword] using Skippable.raw_cons hc keyword

/-- Where the first selector does not start with a digit, the sub-messages do not. -/
theorem head?_of_fills_entriesParts
    (hd : d.Spaced) (hdigit : startsWithDigit entries = false)
    (h : Fills (entriesParts d entries (.raw [d.closer] :: parts)) text) :
    text.head?.any Char.isDigit = false := by
  cases entries with
  | nil =>
      obtain ⟨rest, rfl, -⟩ := fills_raw_iff.mp h
      exact isDigit_of_isNumeral (hd.numeral .closer)
  | cons e entries =>
      obtain ⟨rest, rfl, hrest⟩ := fills_raw_iff.mp h
      have hselector : e.selector.head?.any Char.isDigit = false := by
        simpa [startsWithDigit] using hdigit
      cases hempty : e.selector with
      | cons c selector => simpa [hempty] using hselector
      | nil =>
          have hfollows : d.Follows rest := Dialect.follows_of_fills hd .opener hrest
          exact hfollows.digit

/-- A selector that is read whole does not end the sub-messages. -/
theorem more_of_fills
    {p : Place} (hd : d.Visible) (htaken : d.Takes .selector text)
    (hp : Fills (.raw text :: .gap false :: .raw [d.opener] :: parts) p.rest) :
    ¬(p.peek = none ∨ p.peek = some d.closer) := by
  obtain ⟨rest, hrest, hfills⟩ := fills_raw_iff.mp hp
  have hclosed : d.stops .selector d.closer = true := d.stops_closer .selector
  cases text with
  | cons c text =>
      have hne : c ≠ d.closer := Dialect.ne_of_stops htaken.head hclosed
      simp [Place.peek, hrest, hne]
  | nil =>
      obtain ⟨gap, after, rfl, hgap, -, hafter⟩ := fills_gap_iff.mp hfills
      cases gap with
      | cons b gap =>
          have hb : isBlank b = true := hgap b List.mem_cons_self
          have hne : b ≠ d.closer := by
            rintro rfl
            simp [show isBlank d.closer = false from hd .closer] at hb
          simp [Place.peek, hrest, hne]
      | nil =>
          obtain ⟨more, rfl, -⟩ := fills_raw_iff.mp hafter
          have hne : d.opener ≠ d.closer := d.char_ne .opener .closer
          simp [Place.peek, hrest, hne]

end Parts

/-- The part, without asking for blanks. -/
def Part.waive : Part → Part
  | raw text => raw text
  | gap _ => gap false

theorem Fills.waive
    {parts : List Part} {text : List Char} (h : Fills parts text) :
    Fills (parts.map Part.waive) text := by
  induction h with
  | nil => exact .nil
  | raw text _ ih => exact .raw text ih
  | gap hblanks _ _ ih => exact .gap hblanks nofun ih

namespace Context

variable {cx : Context} {text : List Char} {parts : List Part} {entries : List Entry}

/-- Where the position after a fragment is known, some fragment is read. -/
theorem exists_of_map_pos
    {outcome : Except Fault (FromCursor Fragment)} {pos : Int}
    (h : outcome.map (·.pos) = .ok pos) :
    ∃ x, outcome = .ok ⟨x, pos⟩ := by
  cases outcome with
  | error fault => cases h
  | ok result =>
      cases h
      exact ⟨result.value, rfl⟩

/-- What is read as a body from a text of its own is read so wherever the closer follows. -/
theorem TakesBody.reads
    (h : cx.TakesBody text) (hseam : cx.seam = none)
    (hkeyword : cx.dialect.closer ∉ cx.dialect.offsetKeyword.toList) :
    ∃ body, ∀ tail kept, tail.head? = some cx.dialect.closer →
      ∃ kept', Reads cx ⟨text ++ tail, kept⟩ (.body body) ⟨tail, kept'⟩ := by
  obtain ⟨rest, h⟩ := h
  obtain ⟨x, h⟩ := exists_of_map_pos h
  have hcontext : ({ cx with seam := none } : Context) = cx := by
    rw [← hseam]
  simp only [readFragment] at h
  rw [readingFrom_eq (Int.le_refl 0), hcontext] at h
  obtain ⟨q, hrule, hpos⟩ := Cursor.readBy_eq_ok (Int.le_refl 0) h
  obtain ⟨_, hreads, heq⟩ := (readBody_explained _ _).of_map hrule
  cases heq
  obtain ⟨window, hwindow, hlocal⟩ := hreads.isLocal hseam hkeyword trivial
  have hplace : text ++ cx.dialect.closer :: rest = window ++ q.rest := by
    simpa [Cursor.place] using hwindow
  have hlength : text.length = window.length := by
    have htotal := congrArg List.length hplace
    simp only [List.length_append] at htotal
    simp only [Place.left, Cursor.place, String.toList_ofList, Int.toNat_zero, List.drop_zero,
      List.length_append] at hpos
    omega
  obtain ⟨rfl, hrest⟩ := List.append_inj hplace hlength
  refine ⟨_, fun tail kept htail => hlocal tail kept (Or.inr ?_)⟩
  rw [Place.BeginsLike, htail, Place.peek, ← hrest, List.head?_cons]

section Steps

variable (hd : cx.dialect.Spaced) (hseam : cx.seam = none)
include hd hseam

theorem uniform_body
    (htext : cx.TakesBody text) (body : Body) :
    Uniform (.raw text :: .raw [cx.dialect.closer] :: parts) (.raw [cx.dialect.closer] :: parts)
      (fun a b => Reads cx a (.body body) b) := by
  have hkeyword : cx.dialect.closer ∉ cx.dialect.offsetKeyword.toList :=
    fun hmem => (hd.keyword _ hmem).2 .closer rfl
  obtain ⟨taken, hreads⟩ := htext.reads hseam hkeyword
  refine .intro (body = taken) fun p hp => ?_
  obtain ⟨tail, hrest, htail⟩ := fills_raw_iff.mp hp
  have hhead : tail.head? = some cx.dialect.closer := by
    obtain ⟨more, rfl, -⟩ := fills_raw_iff.mp htail
    rfl
  obtain ⟨kept, hread⟩ := hreads tail p.kept hhead
  rw [← hrest] at hread
  refine ⟨⟨tail, kept⟩, htail, fun r => ?_⟩
  constructor
  · exact fun h => h.body_unique hread
  · rintro ⟨rfl, rfl⟩
    exact hread

/-- Sub-messages are read alike whatever fills the gaps between their parts. -/
theorem uniform_entries
    (hentries : ∀ e ∈ entries, e.Fits cx) (subs : Submessages) :
    Uniform (entriesParts cx.dialect entries (.raw [cx.dialect.closer] :: parts))
      (.raw [cx.dialect.closer] :: parts) (fun a b => Reads cx a (.submessages subs) b) := by
  induction entries generalizing subs with
  | nil =>
      refine .intro (subs = []) fun p hp => ⟨p, hp, fun r => ?_⟩
      constructor
      · exact fun h => h.of_closer hp.peek
      · rintro ⟨rfl, rfl⟩
        exact .entriesEnded (Or.inr hp.peek)
  | cons e entries ih =>
      have he : e.Fits cx := hentries e List.mem_cons_self
      have hothers : ∀ e ∈ entries, e.Fits cx := fun e he => hentries e (List.mem_cons_of_mem _ he)
      have hskip : Uniform
          (.gap false :: entriesParts cx.dialect entries (.raw [cx.dialect.closer] :: parts))
          (entriesParts cx.dialect entries (.raw [cx.dialect.closer] :: parts))
          (fun a b => a.skip = b) :=
        uniform_skip (skippable_entriesParts hd.visible (fun e he => (hothers e he).selector)
          (.raw_cons (hd.visible .closer) []))
      have hentry (selector : String) (body : Body) (rest : Submessages) :=
        (Dialect.uniform_readSelector hd.visible he.selector selector).seq
          ((uniform_body hd hseam he.body body).seq
            (uniform_take.seq (hskip.seq (ih hothers rest))))
      have hchain := Uniform.exists_left fun selector => Uniform.exists_left fun body =>
        Uniform.exists_left fun rest =>
          Uniform.and_left fun (_ : subs = rest.before selector body.nodes) =>
            hentry selector body rest
      refine hchain.congr_of_fills fun a b ha => ?_
      constructor
      · rintro ⟨selector, body, rest, rfl, q, hselector, r, hbody, _, ⟨hcloser, rfl⟩, _, rfl, hrest⟩
        exact .entry (more_of_fills hd.visible he.selector ha) hselector hbody hcloser hrest
      · intro h
        cases h with
        | entriesEnded hend => exact absurd hend (more_of_fills hd.visible he.selector ha)
        | entry hmore hselector hbody hcloser hsubs =>
            exact ⟨_, _, _, rfl, _, hselector, _, hbody, _, ⟨hcloser, rfl⟩, _, rfl, hsubs⟩

/-- So are an offset clause, or none, and the sub-messages behind it. -/
theorem uniform_content
    {number : Option (List Char)} {type : String}
    (hnumber : ∀ text ∈ number, cx.dialect.isNumeric type = true ∧ IsNumber text)
    (hentries : ∀ e ∈ entries, e.Fits cx) (offset : Option Int) (subs : Submessages) :
    Uniform (Layout.contentParts cx.dialect number entries) [.raw [cx.dialect.closer]]
      (fun a c => ∃ b, cx.dialect.readOffsetClause type a = .ok (offset, b) ∧
        Reads cx b (.submessages subs) c) := by
  have hcloser : Skippable [.raw [cx.dialect.closer]] := .raw_cons (hd.visible .closer) []
  have hsubs : Uniform (entriesParts cx.dialect entries [.raw [cx.dialect.closer]])
      [.raw [cx.dialect.closer]] (fun a b => Reads cx a (.submessages subs) b) :=
    uniform_entries hd hseam hentries subs
  cases number with
  | some number =>
      obtain ⟨hnumeric, hnumber⟩ := hnumber number rfl
      have hskippable := skippable_entriesParts hd.visible (fun e he => (hentries e he).selector)
        hcloser
      exact (Dialect.uniform_offsetClause_given hnumber hskippable
        (fun hdigit text => head?_of_fills_entriesParts hd hdigit) hnumeric offset).seq hsubs
  | none =>
      cases entries with
      | nil => exact (Dialect.uniform_offsetClause_absent hd .closer type offset).seq hsubs
      | cons e entries =>
          -- What looks like an offset clause is taken from the first selector.
          obtain ⟨first, within, hfirst, hquote, hclause⟩ :=
            Dialect.uniform_offsetClause_within hd .opener e.selector type offset
          have hwithin : ∀ e' ∈ { e with selector := within } :: entries, e'.Fits cx := by
            have he : e.Fits cx := hentries e List.mem_cons_self
            refine List.forall_mem_cons.mpr ⟨⟨?_, he.body⟩, fun e' he' =>
              hentries e' (List.mem_cons_of_mem _ he')⟩
            exact (hfirst ▸ he.selector).of_append hquote
          exact hclause.seq (uniform_entries hd hseam hwithin subs)

section Forms

variable {id type : List Char} (hid : cx.dialect.Takes .word id)
include hid

omit hseam in
theorem uniform_bare
    (node : Node) :
    Uniform ((Layout.bare id).inside cx.dialect) []
      (fun a b => Reads cx a (.placeholder node) b) := by
  have hhead (name : String) : Uniform ((Layout.bare id).inside cx.dialect) []
      (fun a b => cx.dialect.readHead a = .ok (.bare name, b)) :=
    Dialect.uniform_readHead_bare hd.visible hid name
  have hchain := Uniform.exists_left fun name =>
    Uniform.and_left fun (_ : node = .placeholder name none none none) => hhead name
  refine hchain.congr_of_fills fun a b ha => ?_
  constructor
  · rintro ⟨name, rfl, hhead⟩
    exact .bare hhead
  · intro h
    have hform {head : Head} {q : Place} (hhead : cx.dialect.readHead a = .ok (head, q)) :=
      Dialect.readHead_of_closer hd.visible hid ha hhead
    cases h with
    | bare hhead => exact ⟨_, rfl, hhead⟩
    | typed hhead => nomatch hform hhead
    | formatted hhead => nomatch hform hhead
    | branching hhead => nomatch hform hhead

variable (htype : cx.dialect.Takes .word type)
include htype

omit hseam in
theorem uniform_typed
    (node : Node) :
    Uniform ((Layout.typed id type).inside cx.dialect) []
      (fun a b => Reads cx a (.placeholder node) b) := by
  have hhead (name kind : String) : Uniform ((Layout.typed id type).inside cx.dialect) []
      (fun a b => cx.dialect.readHead a = .ok (.typed name kind, b)) :=
    Dialect.uniform_readHead_typed hd.visible hid htype name kind
  have hchain := Uniform.exists_left fun name => Uniform.exists_left fun kind =>
    Uniform.and_left fun (_ : node = .placeholder name (some kind) none none) => hhead name kind
  refine hchain.congr_of_fills fun a b ha => ?_
  constructor
  · rintro ⟨name, kind, rfl, hhead⟩
    exact .typed hhead
  · intro h
    have hform {head : Head} {q : Place} (hhead : cx.dialect.readHead a = .ok (head, q)) :=
      Dialect.readHead_of_separator_closer hd.visible hid htype ha hhead
    cases h with
    | bare hhead => nomatch hform hhead
    | typed hhead => exact ⟨_, _, rfl, hhead⟩
    | formatted hhead => nomatch hform hhead
    | branching hhead => nomatch hform hhead

theorem uniform_formatted
    {format : List Char}
    (hplain : cx.dialect.isBranching (cx.dialect.meaning .word type) = false)
    (hvisible : ∃ c, format.head? = some c ∧ isBlank c = false)
    (hformat : cx.dialect.Takes .body format) (node : Node) :
    Uniform ((Layout.formatted id type format).inside cx.dialect) []
      (fun a b => Reads cx a (.placeholder node) b) := by
  have hskippable : Skippable [.raw format, .gap false, .raw [cx.dialect.closer]] := by
    obtain ⟨c, hc, hblank⟩ := hvisible
    obtain ⟨more, rfl⟩ := List.head?_eq_some_iff.mp hc
    exact .raw_cons hblank more
  have hcontent (offset : Option Int) (read : String) :
      Uniform [.raw format, .gap false, .raw [cx.dialect.closer]] []
        (fun a e => ∃ b, cx.dialect.readOffsetClause (cx.dialect.meaning .word type) a =
          .ok (offset, b) ∧ ∃ c, cx.dialect.readFormat b = .ok (read, c) ∧
            cx.dialect.readCloser c = .ok e) := by
    -- What looks like an offset clause is taken from the format.
    obtain ⟨first, within, hfirst, hquote, hclause⟩ :=
      Dialect.uniform_offsetClause_within hd .closer format (cx.dialect.meaning .word type) offset
    have hwithin : cx.dialect.Takes .body within := (hfirst ▸ hformat).of_append hquote
    exact hclause.seq ((Dialect.uniform_readFormat hd.visible hwithin read).seq
      (Dialect.uniform_readCloser hd.visible).of_gap)
  have hhead := Dialect.uniform_readHead_formatted hd.visible hid htype hskippable
    (cx.dialect.meaning .word id) (cx.dialect.meaning .word type)
  have hchain := Uniform.exists_left fun offset => Uniform.exists_left fun read =>
    Uniform.and_left fun (_ : node = .placeholder (cx.dialect.meaning .word id)
        (some (cx.dialect.meaning .word type)) (some (.text read)) none) =>
      hhead.seq (hcontent offset read)
  refine hchain.congr_of_fills fun a b ha => ?_
  constructor
  · rintro ⟨offset, read, rfl, q, hhead, r, hoffset, s, hread, hcloser⟩
    exact .formatted hhead (hseam ▸ hoffset) hplain hread hcloser
  · intro h
    have hform {head : Head} {q : Place} (hhead : cx.dialect.readHead a = .ok (head, q)) :=
      Dialect.readHead_of_separators hd.visible hid htype ha hhead
    cases h with
    | bare hhead => nomatch hform hhead
    | typed hhead => nomatch hform hhead
    | formatted hhead hoffset hplain hformat hcloser =>
        cases hform hhead
        exact ⟨_, _, rfl, _, hhead, _, hseam ▸ hoffset, _, hformat, hcloser⟩
    | branching hhead hoffset hbranching =>
        cases hform hhead
        simp [hplain] at hbranching

theorem uniform_branching
    {number : Option (List Char)}
    (hbranching : cx.dialect.isBranching (cx.dialect.meaning .word type) = true)
    (hnumber : ∀ text ∈ number,
      cx.dialect.isNumeric (cx.dialect.meaning .word type) = true ∧ IsNumber text)
    (hentries : ∀ inner, cx.enter? (.placeholder (cx.dialect.meaning .word id)
      (cx.dialect.meaning .word type)) = some inner → ∀ e ∈ entries, e.Fits inner)
    (node : Node) :
    Uniform ((Layout.branching id type number entries).inside cx.dialect) []
      (fun a b => Reads cx a (.placeholder node) b) := by
  have hread (inner : Context) (henter : cx.enter? (.placeholder (cx.dialect.meaning .word id)
      (cx.dialect.meaning .word type)) = some inner) (offset : Option Int) (subs : Submessages) :
      Uniform ((Layout.branching id type number entries).inside cx.dialect) []
        (fun a e => ∃ b, cx.dialect.readHead a = .ok (.formatted (cx.dialect.meaning .word id)
          (cx.dialect.meaning .word type), b) ∧ ∃ s, (∃ r, cx.dialect.readOffsetClause
            (cx.dialect.meaning .word type) b = .ok (offset, r) ∧
              Reads inner r (.submessages subs) s) ∧ cx.dialect.readCloser s = .ok e) := by
    have hfits : ∀ e ∈ entries, e.Fits inner := hentries inner henter
    obtain ⟨-, hinner⟩ := enter?_eq_some henter
    have hdialect : inner.dialect = cx.dialect := by
      rw [hinner]
    have hspaced : inner.dialect.Spaced := hdialect.symm ▸ hd
    have hinnerSeam : inner.seam = none := by
      rw [hinner]
      exact hseam
    rw [← hdialect] at hnumber
    have hcontent := uniform_content hspaced hinnerSeam hnumber hfits offset subs
    have hskippable := skippable_contentParts hspaced (fun text htext => (hnumber text htext).2)
      (fun e he => (hfits e he).selector)
    rw [hdialect] at hcontent hskippable
    exact (Dialect.uniform_readHead_formatted hd.visible hid htype hskippable _ _).seq
      (hcontent.seq (Dialect.uniform_readCloser hd.visible).of_gap)
  have hchain := Uniform.exists_left fun inner => Uniform.and_left fun henter =>
    Uniform.exists_left fun offset => Uniform.exists_left fun (subs : Submessages) =>
      Uniform.and_left fun (_ : subs.isComplete requiredSelector = true ∧
          node = .placeholder (cx.dialect.meaning .word id)
            (some (cx.dialect.meaning .word type)) (offset.map .offset) (some subs)) =>
        hread inner henter offset subs
  refine hchain.congr_of_fills fun a b ha => ?_
  constructor
  · rintro ⟨inner, henter, offset, subs, ⟨hcomplete, rfl⟩, q, hhead, s, ⟨r, hoffset, hsubs⟩,
      hcloser⟩
    exact .branching hhead (hseam ▸ hoffset) hbranching henter hsubs hcomplete hcloser
  · intro h
    have hform {head : Head} {q : Place} (hhead : cx.dialect.readHead a = .ok (head, q)) :=
      Dialect.readHead_of_separators hd.visible hid htype ha hhead
    cases h with
    | bare hhead => nomatch hform hhead
    | typed hhead => nomatch hform hhead
    | formatted hhead hoffset hplain =>
        cases hform hhead
        simp [hbranching] at hplain
    | branching hhead hoffset _ henter hsubs hcomplete hcloser =>
        cases hform hhead
        exact ⟨_, henter, _, _, ⟨hcomplete, rfl⟩, _, hhead, _, ⟨_, hseam ▸ hoffset, hsubs⟩, hcloser⟩

end Forms

end Steps

/-- A placeholder is read alike whatever fills the gaps between its parts. -/
theorem uniform_placeholder
    {layout : Layout} (hlayout : layout.Fits cx) (hd : cx.dialect.Spaced) (hseam : cx.seam = none)
    (node : Node) :
    Uniform (layout.inside cx.dialect) [] (fun a b => Reads cx a (.placeholder node) b) := by
  cases layout with
  | bare id => exact uniform_bare hd hlayout node
  | typed id type =>
      obtain ⟨hid, htype⟩ := hlayout
      exact uniform_typed hd hid htype node
  | formatted id type format =>
      obtain ⟨hid, htype, hplain, hvisible, hformat⟩ := hlayout
      exact uniform_formatted hd hseam hid htype hplain hvisible hformat node
  | branching id type number entries =>
      obtain ⟨hid, htype, hbranching, hnumber, hentries⟩ := hlayout
      exact uniform_branching hd hseam hid htype hbranching hnumber hentries node

/-- A fragment that is read from a cursor of its own text lies on no seam. -/
theorem fits_withoutSeam
    {layout : Layout} (h : layout.Fits cx) :
    layout.Fits { cx with seam := none } := by
  cases layout with
  | bare id => exact h
  | typed id type => exact h
  | formatted id type format => exact h
  | branching id type number entries =>
      obtain ⟨hid, htype, hbranching, hnumber, hentries⟩ := h
      refine ⟨hid, htype, hbranching, hnumber, ?_⟩
      intro inner henter e he
      obtain ⟨hdepth, rfl⟩ := enter?_eq_some henter
      have hlt : cx.depth < cx.limit := hdepth
      have hfits := hentries _ (enter?_of_lt hlt _) e he
      exact ⟨hfits.selector, hfits.body⟩

/-- Behind its opener, a placeholder is read from a text of its own. -/
theorem readFragment_placeholder_iff
    {text : String} {inside : List Char} {x : Fragment}
    (htext : text.toList = cx.dialect.opener :: inside) :
    (cx.readFragment .placeholder ⟨text, 0⟩).outcome = .ok ⟨x, text.toList.length⟩
      ↔
    ∃ node q, x = .node node ∧ q.rest = [] ∧
      Reads { cx with seam := none } ⟨inside, []⟩ (.placeholder node) q := by
  have hframes : Cursor.Frames ⟨text, 0⟩ [] (cx.dialect.opener :: inside) [] :=
    ⟨by simp [htext], rfl⟩
  have hne : cx.dialect.opener ≠ cx.dialect.reference := cx.dialect.char_ne .opener .reference
  have helement : cx.readFragment .placeholder ⟨text, 0⟩ = cx.readPlaceholderAt ⟨text, 0⟩ := by
    simp only [readFragment, readElement, hframes.current_eq, if_neg hne]
    cases cx.referent <;> rfl
  have hplace := hframes.advance.place_eq
  rw [List.append_nil] at hplace
  have hpos : (Cursor.advance ⟨text, 0⟩ 1).pos = 1 := hframes.advance.pos_eq
  have hlength : (text.toList.length : Int) = 1 + inside.length := by
    rw [htext, List.length_cons]
    omega
  rw [helement, readPlaceholderAt, readingFrom_eq (by omega)]
  constructor
  · intro h
    obtain ⟨q, hrule, hend⟩ := Cursor.readBy_eq_ok (by omega) h
    obtain ⟨node, hreads, rfl⟩ := (readPlaceholder_explained _ _).of_map hrule
    rw [hplace, hpos] at hend
    refine ⟨node, q, rfl, List.length_eq_zero_iff.mp ?_, hplace ▸ hreads⟩
    simp only [Place.left] at hend
    omega
  · rintro ⟨node, q, rfl, hq, hreads⟩
    have hanswer := hreads.answers
    rw [← hplace] at hanswer
    refine (Cursor.readBy_of_rule (by omega) (?_ : _ = Except.ok (.node node, q))).trans ?_
    · simp only [Answers] at hanswer
      rw [hanswer]
      rfl
    · rw [hpos, hplace, hlength, Place.left, Place.left, hq]
      simp

/-- Blanks between the parts of a placeholder do not matter. -/
theorem readFragment_spaced
    {layout : Layout} (hd : cx.dialect.Spaced) (hlayout : layout.Fits cx)
    {text text' : String} (htext : Fills (layout.parts cx.dialect) text.toList)
    (htext' : Fills (layout.parts cx.dialect) text'.toList) {x : Fragment}
    (h : (cx.readFragment .placeholder ⟨text, 0⟩).outcome = .ok ⟨x, text.toList.length⟩) :
    (cx.readFragment .placeholder ⟨text', 0⟩).outcome = .ok ⟨x, text'.toList.length⟩ := by
  obtain ⟨inside, hinside, hfills⟩ := fills_raw_iff.mp htext
  obtain ⟨inside', hinside', hfills'⟩ := fills_raw_iff.mp htext'
  obtain ⟨node, q, rfl, -, hreads⟩ := (readFragment_placeholder_iff hinside).mp h
  have huniform : Uniform (layout.inside cx.dialect) []
      (fun a b => Reads { cx with seam := none } a (.placeholder node) b) :=
    uniform_placeholder (fits_withoutSeam hlayout) hd rfl node
  obtain ⟨-, hall⟩ := huniform _ q hfills hreads
  obtain ⟨q', hreads', hq'⟩ := hall ⟨inside', []⟩ hfills'
  exact (readFragment_placeholder_iff hinside').mpr ⟨node, q', rfl, fills_nil_iff.mp hq', hreads'⟩

/-- An offset of one, in front of a selector that starts with a digit. -/
def digitLayout : Layout :=
  .branching ['n'] "plural".toList (some ['1']) [⟨"2x".toList, ['a']⟩, ⟨"other".toList, ['b']⟩]

theorem standard_spaced :
    Dialect.standard.Spaced := by
  have hkeyword (role : Role) :
      Dialect.standard.offsetKeyword.toList.all (fun c =>
        isBlank c = false ∧ c ≠ Dialect.standard.char role) = true := by
    cases role <;> decide
  have hplain (role : Role) (c : Char) (hc : c ∈ Dialect.standard.offsetKeyword.toList) :
      isBlank c = false ∧ c ≠ Dialect.standard.char role :=
    of_decide_eq_true (List.all_eq_true.mp (hkeyword role) c hc)
  refine ⟨?_, ?_, fun c hc => ⟨(hplain .opener c hc).1, fun role => (hplain role c hc).2⟩⟩
  · intro role
    cases role <;> rfl
  · intro role
    cases role <;> rfl

theorem digitLayout_fits :
    digitLayout.Fits { dialect := .standard, limit := 100 } := by
  refine ⟨⟨['n'], '\x7d', [], rfl, by decide⟩, ⟨"plural".toList, '\x7d', [], rfl, by decide⟩,
    by decide, ?_, ?_⟩
  · rintro text ⟨⟩
    exact ⟨by decide, [], ['1'], rfl, Or.inl rfl, by decide, List.forall_mem_singleton.mpr rfl⟩
  · rintro inner henter e he
    obtain ⟨-, rfl⟩ := enter?_eq_some henter
    simp only [List.mem_cons, List.not_mem_nil, or_false] at he
    rcases he with rfl | rfl
    · exact ⟨⟨"2x".toList, '\x7b', [], rfl, by decide⟩, [], by decide +kernel⟩
    · exact ⟨⟨"other".toList, '\x7b', [], rfl, by decide⟩, [], by decide +kernel⟩

theorem fills_digitLayout :
    Fills (digitLayout.parts .standard)
      "\x7bn,plural,offset:1 2x\x7ba\x7dother\x7bb\x7d\x7d".toList :=
  .raw _ <| .gap_nil <| .raw _ <| .gap_nil <| .raw _ <| .gap_nil <| .raw _ <| .gap_nil <|
    .raw _ <| .gap_nil <| .raw _ <| .gap_nil <| .raw _ <| .gap_cons rfl <| .gap_nil <|
    .raw _ <| .gap_nil <| .raw _ <| .raw _ <| .raw _ <| .gap_nil <|
    .raw _ <| .gap_nil <| .raw _ <| .raw _ <| .raw _ <| .gap_nil <| .raw _ .nil

theorem fills_digitLayout_loose :
    Fills (digitLayout.parts .standard)
      "\x7b n , plural,\n offset: 1\t2x \x7ba\x7d other\x7bb\x7d \x7d".toList :=
  .raw _ <| .gap_cons rfl <| .gap_nil <| .raw _ <| .gap_cons rfl <| .gap_nil <|
    .raw _ <| .gap_cons rfl <| .gap_nil <| .raw _ <| .gap_nil <|
    .raw _ <| .gap_cons rfl <| .gap_cons rfl <| .gap_nil <|
    .raw _ <| .gap_cons rfl <| .gap_nil <| .raw _ <| .gap_cons rfl <| .gap_nil <|
    .raw _ <| .gap_cons rfl <| .gap_nil <| .raw _ <| .raw _ <| .raw _ <|
    .gap_cons rfl <| .gap_nil <| .raw _ <| .gap_nil <| .raw _ <| .raw _ <| .raw _ <|
    .gap_cons rfl <| .gap_nil <| .raw _ .nil

/-- Blanks are taken out and put in around the words, the number, the selectors and the bodies of a
plural. -/
theorem readFragment_spaced_offset :
    let cx : Context := { dialect := .standard, limit := 100 }
    let tight := "\x7bn,plural,offset:1 2x\x7ba\x7dother\x7bb\x7d\x7d"
    let loose := "\x7b n , plural,\n offset: 1\t2x \x7ba\x7d other\x7bb\x7d \x7d"
    cx.dialect.Spaced ∧ digitLayout.Fits cx ∧
      Fills (digitLayout.parts cx.dialect) tight.toList ∧
      Fills (digitLayout.parts cx.dialect) loose.toList ∧
      ∃ x, (cx.readFragment .placeholder ⟨tight, 0⟩).outcome = .ok ⟨x, tight.toList.length⟩ ∧
        (cx.readFragment .placeholder ⟨loose, 0⟩).outcome = .ok ⟨x, loose.toList.length⟩ := by
  intro cx tight loose
  have hpos : (cx.readFragment .placeholder ⟨tight, 0⟩).outcome.map (·.pos) =
      .ok tight.toList.length := by
    decide +kernel
  obtain ⟨x, hread⟩ := exists_of_map_pos hpos
  exact ⟨standard_spaced, digitLayout_fits, fills_digitLayout, fills_digitLayout_loose, x, hread,
    readFragment_spaced standard_spaced digitLayout_fits fills_digitLayout fills_digitLayout_loose
      hread⟩

/-- Without blanks behind an offset, the digits that follow belong to it. -/
theorem not_readFragment_spaced_waived :
    ¬ ∀ (cx : Context) (layout : Layout) (text text' : String) (x : Fragment),
      cx.dialect.Spaced → layout.Fits cx →
      Fills ((layout.parts cx.dialect).map Part.waive) text.toList →
      Fills ((layout.parts cx.dialect).map Part.waive) text'.toList →
      (cx.readFragment .placeholder ⟨text, 0⟩).outcome = .ok ⟨x, text.toList.length⟩ →
      (cx.readFragment .placeholder ⟨text', 0⟩).outcome = .ok ⟨x, text'.toList.length⟩ := by
  intro hall
  have hmerged : Fills ((digitLayout.parts .standard).map Part.waive)
      "\x7bn,plural,offset:12x\x7ba\x7dother\x7bb\x7d\x7d".toList :=
    .raw _ <| .gap_nil <| .raw _ <| .gap_nil <| .raw _ <| .gap_nil <| .raw _ <| .gap_nil <|
      .raw _ <| .gap_nil <| .raw _ <| .gap_nil <| .raw _ <| .gap_nil <|
      .raw _ <| .gap_nil <| .raw _ <| .raw _ <| .raw _ <| .gap_nil <|
      .raw _ <| .gap_nil <| .raw _ <| .raw _ <| .raw _ <| .gap_nil <| .raw _ .nil
  have hread := hall { dialect := .standard, limit := 100 } digitLayout _ _
    (.node (.placeholder "n" (some "plural") (some (.offset 1))
      (some [("2x", [.text "a"]), ("other", [.text "b"])])))
    standard_spaced digitLayout_fits fills_digitLayout.waive hmerged (by decide +kernel)
  revert hread
  decide +kernel

end Context

end MessageFormat
