import MessageFormat.Message.Serialize
import MessageFormat.Proofs.Derivation.Agreement
import MessageFormat.Proofs.Tokens
import Mathlib.Control.Monad.Basic

/-!
# Well-formed messages

What a dialect can express: text is never empty and never beside other text, tokens are not empty,
a placeholder has sub-messages exactly if its type takes them, formats are trimmed, offsets stand
at numeric types, references stand where their number is known, and tags where they are allowed.

Everything that is read is well-formed (`Reads.wellFormed`). The proof is one induction over
derivations: whatever is put in front of a well-formed body gives a well-formed body again
(`Node.Fits`). Its numbers have as many digits as can be shown, so whatever is read has a literal
(`Reader.readAnything_shown`).
-/

namespace MessageFormat

/-- What may stand in the format position of a placeholder of a type. -/
def Format.WellFormed (d : Dialect) (type : String) : Format → Prop
  | .text s => d.isBranching type = false ∧ EndsInk s ∧ (d.Visible → StartsInk s)
  | .offset n =>
      d.isNumeric type = true ∧ d.isBranching type = true ∧ n.natAbs < leastOver maxDigits

/-- Whether a message starts with text. -/
def Message.startsWithText : Message → Bool
  | .text _ :: _ => true
  | _ => false

mutual

/-- A node that stands in a body of this owner, the id of the number that references stand for. -/
def Node.WellFormed (d : Dialect) (owner : Option String) : Node → Prop
  | .text s => s ≠ ""
  | .reference id => owner = some id
  | .placeholder id none format subs => id ≠ "" ∧ format = none ∧ subs = none
  | .placeholder id (some type) format none =>
      id ≠ "" ∧ type ≠ "" ∧ d.isBranching type = false ∧
        ∀ f, format = some f → f.WellFormed d type
  | .placeholder id (some type) format (some subs) =>
      id ≠ "" ∧ type ≠ "" ∧ d.isBranching type = true ∧
        (∀ f, format = some f → f.WellFormed d type) ∧
        Submessages.isComplete subs requiredSelector = true ∧
        (subs.map Prod.fst).Nodup ∧
        Submessages.WellFormed d (d.ownerOf id type) subs
  | .tag name none => d.tagsAllowed = true ∧ name ≠ ""
  | .tag name (some children) =>
      d.tagsAllowed = true ∧ name ≠ "" ∧ children ≠ [] ∧ Message.WellFormed d none children

/-- The nodes of a body of this owner. -/
def Message.WellFormed (d : Dialect) (owner : Option String) : List Node → Prop
  | [] => True
  | node :: rest =>
      Node.WellFormed d owner node ∧
        (Message.startsWithText [node] = true → Message.startsWithText rest = false) ∧
        Message.WellFormed d owner rest

/-- Sub-messages whose bodies have this owner. -/
def Submessages.WellFormed (d : Dialect) (owner : Option String) :
    List (String × List Node) → Prop
  | [] => True
  | (selector, body) :: rest =>
      selector ≠ "" ∧ Message.WellFormed d owner body ∧ Submessages.WellFormed d owner rest

end

/-- A node keeps a body well-formed when it is put in front. -/
def Node.Fits (d : Dialect) (owner : Option String) (node : Node) : Prop :=
  ∀ rest, Message.WellFormed d owner rest → Message.WellFormed d owner (node.before rest)

theorem Node.before_of_not_text
    {node : Node} (hnode : Message.startsWithText [node] = false)
    (rest : Message) :
    node.before rest = node :: rest := by
  cases node with
  | text s =>
      simp [Message.startsWithText] at hnode
  | placeholder id type format subs =>
      rfl
  | reference id =>
      rfl
  | tag name children =>
      rfl

theorem Node.text_before_of_not_text
    {s : String} (hs : s ≠ "")
    {rest : Message} (hrest : Message.startsWithText rest = false) :
    (Node.text s).before rest = .text s :: rest := by
  cases rest with
  | nil =>
      simp [Node.before, hs]
  | cons node rest =>
      cases node with
      | text t =>
          simp [Message.startsWithText] at hrest
      | placeholder id type format subs =>
          simp [Node.before, hs]
      | reference id =>
          simp [Node.before, hs]
      | tag name children =>
          simp [Node.before, hs]

theorem Node.text_before_text
    {s : String} (hs : s ≠ "") (t : String) (rest : Message) :
    (Node.text s).before (.text t :: rest) = .text (s ++ t) :: rest := by
  simp [Node.before, hs]

theorem Node.fits_text
    (d : Dialect) (owner : Option String) (s : String) :
    (Node.text s).Fits d owner := by
  intro rest hrest
  by_cases hs : s = ""
  · subst hs
    exact hrest
  · cases hstart : Message.startsWithText rest with
    | false =>
        rw [Node.text_before_of_not_text hs hstart]
        exact ⟨hs, fun _ => hstart, hrest⟩
    | true =>
        match rest, hrest with
        | .text t :: rest, ⟨_, hapart, htail⟩ =>
            have hst : s ++ t ≠ "" := by
              simp [hs]
            rw [Node.text_before_text hs]
            exact ⟨hst, hapart, htail⟩

theorem Node.WellFormed.fits
    {d : Dialect} {owner : Option String} {node : Node}
    (h : node.WellFormed d owner) :
    node.Fits d owner := by
  intro rest hrest
  cases htext : Message.startsWithText [node] with
  | true =>
      match node, h with
      | .text s, _ => exact Node.fits_text d owner s rest hrest
  | false =>
      rw [Node.before_of_not_text htext]
      exact ⟨h, by simp [htext], hrest⟩

theorem Submessages.wellFormed_iff
    {d : Dialect} {owner : Option String} {subs : Submessages} :
    Submessages.WellFormed d owner subs ↔
      ∀ entry ∈ subs, entry.1 ≠ "" ∧ Message.WellFormed d owner entry.2 := by
  induction subs with
  | nil =>
      simp [Submessages.WellFormed]
  | cons entry subs ih =>
      obtain ⟨selector, body⟩ := entry
      simp [Submessages.WellFormed, ih, and_assoc]

/-- A sub-message in front keeps the selectors different. -/
theorem Submessages.nodup_before
    {subs : Submessages} (hnodup : (subs.map Prod.fst).Nodup)
    (selector : String) (body : Message) :
    ((subs.before selector body).map Prod.fst).Nodup := by
  unfold Submessages.before
  split
  · rw [List.map_cons, List.nodup_cons]
    constructor
    · simp
    · exact hnodup.sublist (List.filter_sublist.map Prod.fst)
  · next hnone =>
      rw [List.map_cons, List.nodup_cons]
      refine ⟨?_, hnodup⟩
      intro hmem
      obtain ⟨entry, hentry, hkey⟩ := List.mem_map.mp hmem
      have hne := List.lookup_eq_none_iff.mp hnone entry hentry
      simp [hkey] at hne

theorem Submessages.WellFormed.before
    {d : Dialect} {owner : Option String} {subs : Submessages}
    (hsubs : Submessages.WellFormed d owner subs)
    {selector : String} {body : Message}
    (hselector : selector ≠ "") (hbody : Message.WellFormed d owner body) :
    Submessages.WellFormed d owner (subs.before selector body) := by
  rw [Submessages.wellFormed_iff] at hsubs
  unfold Submessages.before
  split
  · next later hlater =>
      obtain ⟨first, last, rfl, _⟩ := List.lookup_eq_some_iff.mp hlater
      rw [Submessages.wellFormed_iff]
      intro entry hentry
      rcases List.mem_cons.mp hentry with rfl | hentry
      · exact ⟨hselector, (hsubs (selector, later) (by simp)).2⟩
      · exact hsubs entry (List.mem_filter.mp hentry).1
  · exact ⟨hselector, hbody, Submessages.wellFormed_iff.mpr hsubs⟩

namespace Context

/-- What is read keeps bodies well-formed. A piece of markup counts only where tags are allowed. -/
def Reading.WellFormed (cx : Context) : Reading → Prop
  | .body body => Message.WellFormed cx.dialect cx.referent body.nodes
  | .piece _ (.node node) => node.Fits cx.dialect cx.referent
  | .placeholder node => node.WellFormed cx.dialect cx.referent
  | .submessages subs =>
      Submessages.WellFormed cx.dialect cx.referent subs ∧ (subs.map Prod.fst).Nodup
  | .markup (.node node) => cx.dialect.tagsAllowed = true → node.Fits cx.dialect cx.referent
  | .piece _ (.closingTag _) | .markup (.closingTag _) => True

theorem atom?_fits
    {cx : Context} {c : Char} {next : Option Char} {node : Node}
    (h : cx.atom? c next = some node) :
    node.Fits cx.dialect cx.referent := by
  unfold atom? at h
  split at h
  · cases h
    exact Node.fits_text _ _ _
  · split at h
    · obtain ⟨id, hid, rfl⟩ := Option.map_eq_some_iff.mp h
      exact Node.WellFormed.fits hid
    · split at h <;> cases h
      exact Node.fits_text _ _ _

/-- In the sub-messages of a placeholder, references stand for its number. -/
theorem referent_of_placeholder
    {cx : Context} {id type : String}
    (h : cx.enclosing = .placeholder id type) :
    cx.referent = cx.dialect.ownerOf id type := by
  simp [referent, h, Dialect.ownerOf]

theorem Reads.wellFormed
    {cx : Context} {p q : Place} {x : Reading}
    (h : Reads cx p x q) :
    Reading.WellFormed cx x := by
  induction h with
  | bodyAtEnd hpeek => trivial
  | bodyEnded hpeek hends => trivial
  | bodyClosed hpeek hends hpiece ih => trivial
  | bodyNode hpeek hends hpiece hbody ihpiece ihbody => exact ihpiece _ ihbody
  | atom hatom => exact atom?_fits hatom
  | opened hatom hopener hnode ih => exact Node.WellFormed.fits ih
  | @marked cx p q c piece hatom htags hopener hmarkup ih =>
      cases piece with
      | node node => exact ih htags
      | closingTag name => trivial
  | text hraw => exact Node.fits_text _ _ _
  | bare hhead => exact ⟨Dialect.readHead_sound hhead, rfl, rfl⟩
  | typed hhead =>
      obtain ⟨hid, htype, hplain⟩ := Dialect.readHead_sound hhead
      exact ⟨hid, htype, hplain, by simp⟩
  | formatted hhead hoffset hplain hformat hcloser =>
      obtain ⟨hid, htype⟩ := Dialect.readHead_sound hhead
      have hskip := Dialect.readOffsetClause_skip hoffset (Dialect.readHead_skip hhead)
      refine ⟨hid, htype, hplain, ?_⟩
      rintro f ⟨⟩
      exact ⟨hplain, Dialect.readFormat_sound hformat hskip⟩
  | @branching cx inner p q r s t id type offset subs hhead hoffset hbranching henter hsubs
      hcomplete hcloser ih =>
      obtain ⟨hid, htype⟩ := Dialect.readHead_sound hhead
      obtain ⟨_, rfl⟩ := enter?_eq_some henter
      obtain ⟨hwell, hnodup⟩ := ih
      rw [referent_of_placeholder rfl] at hwell
      refine ⟨hid, htype, hbranching, ?_, hcomplete, hnodup, hwell⟩
      intro f hf
      obtain ⟨n, rfl, rfl⟩ := Option.map_eq_some_iff.mp hf
      obtain ⟨hnumeric, hbound⟩ := Dialect.readOffsetClause_sound hoffset
      exact ⟨hnumeric, hbranching, hbound⟩
  | entriesEnded hpeek => exact ⟨trivial, by simp⟩
  | entry hpeek hselector hbody hcloser hsubs ihbody ihsubs =>
      obtain ⟨hwell, hnodup⟩ := ihsubs
      exact ⟨hwell.before (Dialect.readSelector_ne_empty hselector) ihbody,
        Submessages.nodup_before hnodup _ _⟩
  | keptMarkup hhead => exact fun _ => Node.fits_text _ _ _
  | closingTag hhead => trivial
  | emptyTag hhead =>
      exact fun htags => Node.WellFormed.fits ⟨htags, Dialect.readTagHead_sound hhead⟩
  | @tag cx inner p q r name body hhead henter hbody hclosed ih =>
      obtain ⟨_, rfl⟩ := enter?_eq_some henter
      have hname := Dialect.readTagHead_sound hhead
      intro htags
      apply Node.WellFormed.fits
      cases hnodes : body.nodes with
      | nil => exact ⟨htags, hname⟩
      | cons node rest =>
          refine ⟨htags, hname, by simp, ?_⟩
          rw [← hnodes]
          exact ih

end Context

/-- Every message that a reader returns is well-formed, as a body that nothing encloses. -/
theorem Reader.readValue_wellFormed
    (r : Reader) (v : Value) (m : Message)
    (h : (r.readValue v).outcome = .ok m) :
    Message.WellFormed r.dialect none m := by
  obtain ⟨_, closed, p, hreads⟩ := Reader.readValue_eq_ok_iff.mp h
  exact hreads.wellFormed

/-- A reference beside a tag, and a quoted reference sign before a tag opener that opens no tag. -/
theorem Reader.readValue_wellFormed_plural :
    ((⟨.standard, 0, 100⟩ : Reader).readValue (.str
        "\x7bn, plural, offset:1 one \x7b#<b>x</b>\x7d other \x7b'#'<\x7d\x7d")).outcome =
      .ok [.placeholder "n" (some "plural") (some (.offset 1)) (some [
        ("one", [.reference "n", .tag "b" (some [.text "x"])]),
        ("other", [.text "#<"])])] ∧
    Message.WellFormed .standard none
      [.placeholder "n" (some "plural") (some (.offset 1)) (some [
        ("one", [.reference "n", .tag "b" (some [.text "x"])]),
        ("other", [.text "#<"])])] := by
  have h : ((⟨.standard, 0, 100⟩ : Reader).readValue (.str
        "\x7bn, plural, offset:1 one \x7b#<b>x</b>\x7d other \x7b'#'<\x7d\x7d")).outcome =
      .ok [.placeholder "n" (some "plural") (some (.offset 1)) (some [
        ("one", [.reference "n", .tag "b" (some [.text "x"])]),
        ("other", [.text "#<"])])] := by
    decide +kernel
  exact ⟨h, Reader.readValue_wellFormed _ _ _ h⟩

/-- What may stand in a format position can be shown. -/
theorem Format.WellFormed.isShowable
    {d : Dialect} {type : String} {format : Format} (h : format.WellFormed d type) :
    format.toValue.isShowable = true := by
  cases format with
  | text s => rfl
  | offset n => exact decide_eq_true h.2.2

theorem Format.isShowable_elim
    {d : Dialect} {type : String} {format : Option Format}
    (h : ∀ f, format = some f → f.WellFormed d type) :
    (format.elim .null Format.toValue).isShowable = true := by
  cases format with
  | none => rfl
  | some format => exact Format.WellFormed.isShowable (h format rfl)

mutual

/-- A well-formed node can be shown: no offset in it has too many digits. -/
theorem Node.WellFormed.isShowable
    {d : Dialect} {owner : Option String} (node : Node) (h : node.WellFormed d owner) :
    node.toValue.isShowable = true := by
  match node with
  | .text s => rfl
  | .reference id => rfl
  | .placeholder id none format none =>
      obtain ⟨_, rfl, _⟩ := h
      rfl
  | .placeholder id none format (some subs) =>
      obtain ⟨_, _, hsubs⟩ := h
      cases hsubs
  | .placeholder id (some type) format none =>
      obtain ⟨_, _, _, hformat⟩ := h
      simp [Node.toValue, Value.isShowable, Format.isShowable_elim hformat]
  | .placeholder id (some type) format (some subs) =>
      obtain ⟨_, _, _, hformat, _, _, hsubs⟩ := h
      simp [Node.toValue, Value.isShowable, Format.isShowable_elim hformat,
        Submessages.WellFormed.isShowable subs hsubs]
  | .tag name none => rfl
  | .tag name (some children) =>
      obtain ⟨_, _, _, hchildren⟩ := h
      simp [Node.toValue, Value.isShowable, Message.WellFormed.isShowable children hchildren]

theorem Message.WellFormed.isShowable
    {d : Dialect} {owner : Option String} (m : List Node) (h : Message.WellFormed d owner m) :
    Value.areShowable (Message.toItems m) = true := by
  match m with
  | [] => rfl
  | node :: rest =>
      simp [Message.toItems, Value.areShowable, Node.WellFormed.isShowable node h.1,
        Message.WellFormed.isShowable rest h.2.2]

theorem Submessages.WellFormed.isShowable
    {d : Dialect} {owner : Option String} (subs : List (String × List Node))
    (h : Submessages.WellFormed d owner subs) :
    Value.entriesShowable (Submessages.toEntries subs) = true := by
  match subs with
  | [] => rfl
  | (selector, body) :: rest =>
      simp [Submessages.toEntries, Value.entriesShowable, Value.isShowable,
        Message.WellFormed.isShowable body h.2.1, Submessages.WellFormed.isShowable rest h.2.2]

end

/-- Whatever a reader returns can be shown, although not every value can be read. -/
theorem Reader.readAnything_shown
    {r : Reader} {v : Value} {m : Message}
    (h : (r.readAnything v).outcome = .ok m) :
    m.toValue.literal? = some m.toValue.literal := by
  cases hv : v.isShowable with
  | false =>
      simp [readAnything, hv, Logged.fail] at h
  | true =>
      rw [readAnything_of_isShowable r hv] at h
      obtain ⟨_, closed, p, hreads⟩ := Reader.readValue_eq_ok_iff.mp h
      have hshown : m.toValue.isShowable = true :=
        Message.WellFormed.isShowable m hreads.wellFormed
      simp [Value.literal?, hshown]

end MessageFormat
