import MessageFormat.Loose.Serialize
import MessageFormat.Proofs.Spelling.Headers
import Mathlib.Control.Monad.Basic

/-!
# Reading undoes writing

A well-formed message is read back from its spelling (`reads_spell`), in front of any text that
ends the body it stands in. The induction goes over the message, and each node is read by the rule
for its kind: a spelled text starts with a character that no other rule takes, and ends before the
next node because two texts never stand side by side.

One thing can go wrong. Where a type allows an offset and there is none, what comes first is taken
for an offset if it starts with the offset keyword. That depends on the whole text that follows,
because a keyword may hold delimiters, so it is a condition on messages in front of a text
(`Unambiguous`).
-/

namespace MessageFormat

/-- A text in front of which an offset may stand does not look like one. -/
def Dialect.LooksPlain (d : Dialect) (type : String) (text : List Char) : Prop :=
  d.isNumeric type = true → ¬ d.offsetKeyword.toList <+: text

mutual

/-- In front of this text, nothing in the spelling of a node looks like an offset but offsets. What
follows the separator after the type counts from behind its blank. -/
def Node.Unambiguous (d : Dialect) : Node → List Char → Prop
  | .text _, _ => True
  | .reference _, _ => True
  | .placeholder _ none _ _, _ => True
  | .placeholder _ (some type) format none, after =>
      ∀ s, format = some (.text s) →
        d.LooksPlain type (d.spellText .body s (d.closer :: after))
  | .placeholder id (some type) format (some subs), after =>
      (format = none → d.LooksPlain type
        ((Submessages.spell d (d.ownerOf id type) subs (d.closer :: after)).drop 1)) ∧
        Submessages.Unambiguous d (d.ownerOf id type) subs (d.closer :: after)
  | .tag _ none, _ => True
  | .tag name (some children), after =>
      Message.Unambiguous d none children (d.spellClosingTag name after)

/-- In front of this text, nothing in the spelling of a body looks like an offset but offsets. -/
def Message.Unambiguous (d : Dialect) (owner : Option String) : List Node → List Char → Prop
  | [], _ => True
  | node :: rest, after =>
      Node.Unambiguous d node (Message.spell d owner rest after) ∧
        Message.Unambiguous d owner rest after

/-- In front of this text, nothing in the spelling of sub-messages looks like an offset. -/
def Submessages.Unambiguous (d : Dialect) (owner : Option String) :
    List (String × List Node) → List Char → Prop
  | [], _ => True
  | (_, body) :: rest, after =>
      Message.Unambiguous d owner body (d.closer :: Submessages.spell d owner rest after) ∧
        Submessages.Unambiguous d owner rest after

end

namespace Context

variable {cx : Context}

theorem covers_mode
    (cx : Context) :
    cx.dialect.Covers cx.mode (cx.dialect.stops cx.mode) := by
  unfold mode
  split
  · exact cx.dialect.covers_numericBody
  · exact cx.dialect.covers_body

theorem stops_mode_closer
    (cx : Context) :
    cx.dialect.stops cx.mode cx.dialect.closer = true :=
  cx.dialect.stops_closer cx.mode

/-- Where references are known, the reference sign ends a text. -/
theorem stops_mode_reference
    {id : String} (h : cx.referent = some id) :
    cx.dialect.stops cx.mode cx.dialect.reference = true := by
  simp [Dialect.stops, Dialect.isMark, mode, h, Mode.numericBody]

theorem endsBody_of_ne
    {c : Char} (h : c ≠ cx.dialect.closer) :
    cx.endsBody c = false := by
  simp [endsBody, h]

theorem atom?_reference
    {id : String} (h : cx.referent = some id) (next : Option Char) :
    cx.atom? cx.dialect.reference next = some (.reference id) := by
  have hne : cx.dialect.reference ≠ cx.dialect.closer := cx.dialect.char_ne .reference .closer
  simp [atom?, hne, h]

end Context

/-- Putting a node in front of a well-formed body that it may stand beside adds it as it is. -/
theorem Node.WellFormed.before_eq
    {d : Dialect} {owner : Option String} {node : Node} {rest : Message}
    (h : node.WellFormed d owner)
    (hapart : Message.startsWithText [node] = true → Message.startsWithText rest = false) :
    node.before rest = node :: rest := by
  cases htext : Message.startsWithText [node] with
  | true =>
      match node, h with
      | .text s, hs => exact Node.text_before_of_not_text hs (hapart htext)
  | false => exact Node.before_of_not_text htext rest

/-- A node that is no text ends a text in front of it. -/
theorem Node.spell_ends_text
    {cx : Context} {node : Node}
    (hnode : node.WellFormed cx.dialect cx.referent)
    (htext : Message.startsWithText [node] = false) (after : List Char) :
    cx.dialect.EndsBefore cx.mode (node.spell cx.dialect cx.referent after) := by
  match node with
  | .text s => simp [Message.startsWithText] at htext
  | .reference id => exact Dialect.endsBefore_cons.mpr (Context.stops_mode_reference hnode)
  | .placeholder id none format subs =>
      exact Dialect.endsBefore_cons.mpr (cx.dialect.stops_opener cx.mode)
  | .placeholder id (some type) format none =>
      exact Dialect.endsBefore_cons.mpr (cx.dialect.stops_opener cx.mode)
  | .placeholder id (some type) format (some subs) =>
      exact Dialect.endsBefore_cons.mpr (cx.dialect.stops_opener cx.mode)
  | .tag name none =>
      exact Dialect.endsBefore_cons.mpr (Dialect.stops_tagOpener hnode.1 cx.mode)
  | .tag name (some children) =>
      exact Dialect.endsBefore_cons.mpr (Dialect.stops_tagOpener hnode.1 cx.mode)

/-- A text ends before whatever may stand behind it. -/
theorem Message.spell_ends_text
    {cx : Context} {m : Message}
    (hm : Message.WellFormed cx.dialect cx.referent m)
    (htext : Message.startsWithText m = false)
    {after : List Char} (hafter : cx.dialect.EndsBefore cx.mode after) :
    cx.dialect.EndsBefore cx.mode (Message.spell cx.dialect cx.referent m after) := by
  cases m with
  | nil => exact hafter
  | cons node rest =>
      have hnode : Message.startsWithText [node] = false := by
        cases node <;> simp_all [Message.startsWithText]
      exact Node.spell_ends_text hm.1 hnode _

theorem Submessages.depth_pos
    {subs : Submessages} (hne : subs ≠ []) :
    1 ≤ Submessages.depth subs := by
  match subs, hne with
  | (selector, body) :: rest, _ =>
      rw [Submessages.depth]
      omega

theorem Submessages.before_of_not_mem
    {subs : Submessages} {selector : String} (h : selector ∉ subs.map Prod.fst) (body : Message) :
    subs.before selector body = (selector, body) :: subs := by
  have hnone : subs.find? selector = none := by
    rw [find?, List.lookup_eq_none_iff]
    intro entry hentry
    rw [bne_iff_ne]
    rintro rfl
    exact h (List.mem_map.mpr ⟨entry, hentry, rfl⟩)
  simp [before, hnone]

/-- The offset clause of a branching placeholder is read, or found to be absent. -/
theorem Dialect.readOffsetClause_spelled
    {d : Dialect} (hvisible : d.Visible) (hkeyword : StartsInk d.offsetKeyword)
    {type : String} {format : Option Format} (hbranching : d.isBranching type = true)
    (hformat : ∀ f, format = some f → f.WellFormed d type)
    {subs : Submessages} {owner : Option String}
    (hne : subs ≠ []) (hsubs : Submessages.WellFormed d owner subs) {after : List Char}
    (hplain : format = none → d.LooksPlain type ((Submessages.spell d owner subs after).drop 1))
    (k : List Nat) :
    ∃ offset : Option Int, format = offset.map .offset ∧
      d.readOffsetClause type
          ⟨skipBlanks (d.spellOffsetClause format (Submessages.spell d owner subs after)), k⟩ =
        .ok (offset, ⟨skipBlanks (Submessages.spell d owner subs after), k⟩) := by
  match subs, hne, hsubs with
  | (selector, body) :: rest, _, ⟨hselector, _, _⟩ =>
      have hskip := Dialect.skipBlanks_spell_cons hvisible owner hselector body rest after
      match format, hformat, hplain with
      | none, _, hplain =>
          refine ⟨none, rfl, Dialect.readOffsetClause_absent ?_⟩
          have hplain := hplain rfl
          rw [Submessages.spell, List.drop_succ_cons, List.drop_zero] at hplain
          simpa only [Dialect.spellOffsetClause, hskip, Dialect.LooksPlain] using hplain
      | some (.offset n), hformat, _ =>
          obtain ⟨hnumeric, _, hbound⟩ := hformat _ rfl
          refine ⟨some n, rfl, ?_⟩
          rw [Dialect.spellOffsetClause, Dialect.skipBlanks_spellOffset hkeyword]
          exact Dialect.readOffsetClause_spell hnumeric hbound (by rfl) k
      | some (.text s), hformat, _ =>
          obtain ⟨hnot, _⟩ := hformat _ rfl
          simp [hbranching] at hnot

namespace Context

variable {cx : Context}

/-- Where a body stands in front of its closer, it ends there. -/
theorem reads_closer
    (henclosing : cx.enclosing ≠ .nothing) (after : List Char) (k : List Nat) :
    Reads cx ⟨cx.dialect.closer :: after, k⟩ (.body ⟨[], false⟩)
      ⟨cx.dialect.closer :: after, k⟩ := by
  refine Reads.bodyEnded (c := cx.dialect.closer) rfl ?_
  simp [endsBody, henclosing]

/-- Where the body of a tag stands in front of its closing tag, it ends behind it. -/
theorem reads_closingTag
    (cx : Context) (hvisible : cx.dialect.Visible) (htags : cx.dialect.tagsAllowed = true)
    {name : String} (hname : name ≠ "") (henclosing : cx.enclosing = .tag name)
    (after : List Char) (k : List Nat) :
    Reads cx ⟨cx.dialect.spellClosingTag name after, k⟩ (.body ⟨[], true⟩) ⟨after, k⟩ := by
  have hne : cx.dialect.tagOpener ≠ cx.dialect.closer := cx.dialect.char_ne .tagOpener .closer
  have hslash : isBlank cx.dialect.tagSlash = false := hvisible .tagSlash
  have hpiece : Reads cx ⟨cx.dialect.spellClosingTag name after, k⟩
      (.piece cx.dialect.tagOpener (.closingTag name)) ⟨after, k⟩ := by
    refine Reads.marked (atom?_tagOpener ?_) htags rfl ?_
    · simpa [Place.peek, Place.advance, Dialect.spellClosingTag] using hslash
    · refine Reads.closingTag ?_
      rw [henclosing]
      exact Dialect.readTagHead_spell_closing hvisible htags hname after k
  exact Reads.bodyClosed rfl (endsBody_of_ne hne) hpiece

/-- What is read of a node: a piece that starts with a character that does not end a body. -/
def ReadsNode (cx : Context) (text : List Char) (node : Node) (after : List Char)
    (k : List Nat) : Prop :=
  ∃ c, text.head? = some c ∧ c ≠ cx.dialect.closer ∧
    Reads cx ⟨text, k⟩ (.piece c (.node node)) ⟨after, k⟩

theorem readsNode_text
    {s : String} (hs : s ≠ "") {after : List Char}
    (hafter : cx.dialect.EndsBefore cx.mode after) (k : List Nat) :
    ReadsNode cx (cx.dialect.spellText cx.mode s after) (.text s) after k := by
  obtain ⟨c, rest, hcons, hc⟩ := Dialect.spellText_eq_cons cx.covers_mode.quote hs after
  refine ⟨c, by rw [hcons]; rfl, Dialect.ne_of_stops hc cx.stops_mode_closer, ?_⟩
  have hscan := Dialect.scan_spellText cx.covers_mode s hafter k
  have hreads := Reads.text (p := ⟨cx.dialect.spellText cx.mode s after, k⟩) hc
  rwa [hscan] at hreads

theorem readsNode_reference
    {id : String} (hid : cx.referent = some id) (after : List Char) (k : List Nat) :
    ReadsNode cx (cx.dialect.reference :: after) (.reference id) after k := by
  refine ⟨cx.dialect.reference, rfl, ?_, Reads.atom (atom?_reference hid _)⟩
  exact cx.dialect.char_ne .reference .closer

/-- A placeholder is read from its opener on. -/
theorem readsNode_placeholder
    {text after : List Char} {node : Node} {k : List Nat}
    (h : Reads cx ⟨text, k⟩ (.placeholder node) ⟨after, k⟩) :
    ReadsNode cx (cx.dialect.opener :: text) node after k := by
  refine ⟨cx.dialect.opener, rfl, ?_, Reads.opened (cx.atom?_opener _) rfl h⟩
  exact cx.dialect.char_ne .opener .closer

/-- A tag is read from its tag opener on. -/
theorem readsNode_tag
    (hvisible : cx.dialect.Visible) (htags : cx.dialect.tagsAllowed = true)
    {name : String} (hname : name ≠ "") {text after : List Char} {node : Node} {k : List Nat}
    (h : Reads cx ⟨cx.dialect.spellTag name text, k⟩ (.markup (.node node)) ⟨after, k⟩) :
    ReadsNode cx (cx.dialect.spellTag name text) node after k := by
  refine ⟨cx.dialect.tagOpener, rfl, ?_, Reads.marked (atom?_tagOpener ?_) htags rfl h⟩
  · exact cx.dialect.char_ne .tagOpener .closer
  · exact Dialect.peek_spellTag hvisible hname text k

theorem ReadsNode.before
    {text after : List Char} {node : Node} {body : Body} {k : List Nat} {q : Place}
    (hnode : ReadsNode cx text node after k)
    (hbody : Reads cx ⟨after, k⟩ (.body body) q) :
    Reads cx ⟨text, k⟩ (.body (body.before node)) q := by
  obtain ⟨c, hpeek, hne, hpiece⟩ := hnode
  exact Reads.bodyNode hpeek (endsBody_of_ne hne) hpiece hbody

section Leaves

variable (hvisible : cx.dialect.Visible)
include hvisible

theorem readsNode_bare
    {id : String} {format : Option Format} {subs : Option Submessages}
    (hnode : Node.WellFormed cx.dialect cx.referent (.placeholder id none format subs))
    (after : List Char) (k : List Nat) :
    ReadsNode cx (Node.spell cx.dialect cx.referent (.placeholder id none format subs) after)
      (.placeholder id none format subs) after k := by
  obtain ⟨hid, rfl, rfl⟩ := hnode
  exact readsNode_placeholder (Reads.bare (Dialect.readHead_spell_bare hvisible hid after k))

/-- A typed placeholder without sub-messages is read back, with its format or without. -/
theorem readsNode_leaf
    (hseam : cx.seam = none) {id type : String} {format : Option Format}
    (hnode : Node.WellFormed cx.dialect cx.referent (.placeholder id (some type) format none))
    {after : List Char}
    (hplain : Node.Unambiguous cx.dialect (.placeholder id (some type) format none) after)
    (k : List Nat) :
    ReadsNode cx (Node.spell cx.dialect cx.referent (.placeholder id (some type) format none) after)
      (.placeholder id (some type) format none) after k := by
  obtain ⟨hid, htype, hbranching, hformat⟩ := hnode
  match format, hformat, hplain with
  | none, _, _ =>
      exact readsNode_placeholder
        (Reads.typed (Dialect.readHead_spell_typed hvisible hid htype hbranching after k))
  | some (.offset n), hformat, _ =>
      obtain ⟨_, hbranching', _⟩ := hformat _ rfl
      simp [hbranching] at hbranching'
  | some (.text s), hformat, hplain =>
      obtain ⟨_, hends, hstarts⟩ := hformat _ rfl
      have hhead := Dialect.readHead_spell_formatted hvisible hid htype
        (' ' :: cx.dialect.spellText .body s (cx.dialect.closer :: after)) k
      rw [Dialect.skipBlanks_blank_spellFormat hvisible hends.1 (hstarts hvisible)] at hhead
      have hoffset : cx.dialect.readOffsetClause type
          ⟨cx.dialect.spellText .body s (cx.dialect.closer :: after), k⟩ cx.seam =
          .ok (none, ⟨cx.dialect.spellText .body s (cx.dialect.closer :: after), k⟩) := by
        rw [hseam]
        exact Dialect.readOffsetClause_absent (hplain s rfl)
      exact readsNode_placeholder
        (Reads.formatted hhead hoffset hbranching (Dialect.readFormat_spell hends after k)
          (Dialect.readCloser_spell hvisible after k))

theorem readsNode_emptyTag
    {name : String} (hnode : Node.WellFormed cx.dialect cx.referent (.tag name none))
    (after : List Char) (k : List Nat) :
    ReadsNode cx (Node.spell cx.dialect cx.referent (.tag name none) after) (.tag name none)
      after k := by
  obtain ⟨htags, hname⟩ := hnode
  exact readsNode_tag hvisible htags hname
    (Reads.emptyTag (Dialect.readTagHead_spell_empty hvisible htags hname after k))

end Leaves

mutual

theorem readsNode_spell
    (cx : Context) (hvisible : cx.dialect.Visible) (hkeyword : StartsInk cx.dialect.offsetKeyword)
    (hseam : cx.seam = none) (node : Node) (after : List Char) (k : List Nat)
    (hnode : node.WellFormed cx.dialect cx.referent)
    (hplain : node.Unambiguous cx.dialect after)
    (hdepth : cx.depth + node.depth ≤ cx.limit)
    (hafter : Message.startsWithText [node] = true → cx.dialect.EndsBefore cx.mode after) :
    ReadsNode cx (node.spell cx.dialect cx.referent after) node after k := by
  match node with
  | .text s => exact readsNode_text hnode (hafter rfl) k
  | .reference id => exact readsNode_reference hnode after k
  | .placeholder id none format subs => exact readsNode_bare hvisible hnode after k
  | .placeholder id (some type) format none =>
      exact readsNode_leaf hvisible hseam hnode hplain k
  | .placeholder id (some type) format (some subs) =>
      obtain ⟨hid, htype, hbranching, hformat, hcomplete, hnodup, hsubs⟩ := hnode
      obtain ⟨hoffsetPlain, hsubsPlain⟩ := hplain
      have hne : subs ≠ [] := by
        rintro rfl
        simp [Submessages.isComplete] at hcomplete
      have hhead := Dialect.readHead_spell_formatted hvisible hid htype
        (cx.dialect.spellOffsetClause format (Submessages.spell cx.dialect
          (cx.dialect.ownerOf id type) subs (cx.dialect.closer :: after))) k
      obtain ⟨offset, rfl, hoffset⟩ := Dialect.readOffsetClause_spelled hvisible hkeyword
        hbranching hformat hne hsubs hoffsetPlain k
      rw [← hseam] at hoffset
      have hlt : cx.depth < cx.limit := by
        have hpos := Submessages.depth_pos hne
        simp only [Node.depth] at hdepth
        omega
      have hinner := reads_spell_submessages
        { cx with depth := cx.depth + 1, enclosing := .placeholder id type }
        hvisible hkeyword hseam (by simp) subs after k hsubs hnodup hsubsPlain (by
          simp only [Node.depth] at hdepth
          dsimp only
          omega)
      exact readsNode_placeholder
        (Reads.branching hhead hoffset hbranching (enter?_of_lt hlt _) hinner hcomplete
          (Dialect.readCloser_spell hvisible after k))
  | .tag name none => exact readsNode_emptyTag hvisible hnode after k
  | .tag name (some []) =>
      obtain ⟨_, _, hne, _⟩ := hnode
      exact absurd rfl hne
  | .tag name (some (child :: rest)) =>
      obtain ⟨htags, hname, _, hchildren⟩ := hnode
      have hdepths : cx.depth < cx.limit ∧
          cx.depth + 1 + Message.depth (child :: rest) ≤ cx.limit := by
        simp only [Node.depth] at hdepth
        simp only [Message.depth]
        omega
      have hend := reads_closingTag { cx with depth := cx.depth + 1, enclosing := .tag name }
        hvisible htags hname rfl after k
      have hbody := reads_spell { cx with depth := cx.depth + 1, enclosing := .tag name }
        hvisible hkeyword hseam (child :: rest) _ k hchildren hplain hdepths.2
        (Dialect.endsBefore_cons.mpr (Dialect.stops_tagOpener htags _)) hend
      exact readsNode_tag hvisible htags hname
        (Reads.tag (Dialect.readTagHead_spell_opening hvisible htags hname _ k)
          (enter?_of_lt hdepths.1 _) hbody rfl)

theorem reads_spell
    (cx : Context) (hvisible : cx.dialect.Visible) (hkeyword : StartsInk cx.dialect.offsetKeyword)
    (hseam : cx.seam = none) (m : List Node) (after : List Char) (k : List Nat)
    (hm : Message.WellFormed cx.dialect cx.referent m)
    (hplain : Message.Unambiguous cx.dialect cx.referent m after)
    (hdepth : cx.depth + Message.depth m ≤ cx.limit)
    (hafter : cx.dialect.EndsBefore cx.mode after)
    {closed : Bool} {q : Place} (hend : Reads cx ⟨after, k⟩ (.body ⟨[], closed⟩) q) :
    Reads cx ⟨Message.spell cx.dialect cx.referent m after, k⟩ (.body ⟨m, closed⟩) q := by
  match m with
  | [] => exact hend
  | node :: rest =>
      obtain ⟨hnode, hapart, hrest⟩ := hm
      obtain ⟨hnodePlain, hrestPlain⟩ := hplain
      have hdepths : cx.depth + node.depth ≤ cx.limit ∧
          cx.depth + Message.depth rest ≤ cx.limit := by
        simp only [Message.depth] at hdepth
        omega
      have hbody := reads_spell cx hvisible hkeyword hseam rest after k hrest hrestPlain hdepths.2
        hafter hend
      have hpiece := readsNode_spell cx hvisible hkeyword hseam node _ k hnode hnodePlain hdepths.1
        (fun htext => Message.spell_ends_text hrest (hapart htext) hafter)
      have hreads := hpiece.before hbody
      rwa [Body.before, hnode.before_eq hapart] at hreads

theorem reads_spell_submessages
    (cx : Context) (hvisible : cx.dialect.Visible) (hkeyword : StartsInk cx.dialect.offsetKeyword)
    (hseam : cx.seam = none) (henclosing : cx.enclosing ≠ .nothing)
    (subs : List (String × List Node)) (after : List Char) (k : List Nat)
    (hsubs : Submessages.WellFormed cx.dialect cx.referent subs)
    (hnodup : (subs.map Prod.fst).Nodup)
    (hplain : Submessages.Unambiguous cx.dialect cx.referent subs (cx.dialect.closer :: after))
    (hdepth : cx.depth + Submessages.depth subs ≤ cx.limit + 1) :
    Reads cx
      ⟨skipBlanks (Submessages.spell cx.dialect cx.referent subs (cx.dialect.closer :: after)), k⟩
      (.submessages subs) ⟨cx.dialect.closer :: after, k⟩ := by
  match subs with
  | [] =>
      have hskip : skipBlanks (cx.dialect.closer :: after) = cx.dialect.closer :: after :=
        Dialect.skipBlanks_cons_visible hvisible .closer after
      rw [Submessages.spell, hskip]
      exact Reads.entriesEnded (Or.inr rfl)
  | (selector, body) :: rest =>
      obtain ⟨hselector, hbody, hrest⟩ := hsubs
      obtain ⟨hbodyPlain, hrestPlain⟩ := hplain
      rw [List.map_cons, List.nodup_cons] at hnodup
      have hdepths : cx.depth + Message.depth body ≤ cx.limit ∧
          cx.depth + Submessages.depth rest ≤ cx.limit + 1 := by
        simp only [Submessages.depth] at hdepth
        omega
      have hreadsRest := reads_spell_submessages cx hvisible hkeyword hseam henclosing rest after k
        hrest hnodup.2 hrestPlain hdepths.2
      have hreadsBody := reads_spell cx hvisible hkeyword hseam body
        (cx.dialect.closer :: Submessages.spell cx.dialect cx.referent rest
          (cx.dialect.closer :: after)) k
        hbody hbodyPlain hdepths.1 (Dialect.endsBefore_cons.mpr cx.stops_mode_closer)
        (reads_closer henclosing _ k)
      obtain ⟨c, tail, hcons, hc⟩ := Dialect.spellText_eq_cons
        (Dialect.stops_quote_of_visible hvisible .word) hselector
        (' ' :: cx.dialect.opener :: Message.spell cx.dialect cx.referent body
          (cx.dialect.closer :: Submessages.spell cx.dialect cx.referent rest
            (cx.dialect.closer :: after)))
      have hne : c ≠ cx.dialect.closer := Dialect.ne_of_stops hc (cx.dialect.stops_closer .word)
      have hentry := Reads.entry (by simp [Place.peek, hcons, hne])
        (Dialect.readSelector_spell hvisible hselector _ k) hreadsBody rfl hreadsRest
      rw [Dialect.skipBlanks_spell_cons hvisible _ hselector]
      rwa [Submessages.before_of_not_mem hnodup.1] at hentry

end

end Context

theorem clampDepthLogged_outcome
    (frames reserve requested : Int) :
    (clampDepthLogged frames reserve requested).outcome =
      .ok (clampDepth frames reserve requested) := by
  simp only [clampDepthLogged]
  split
  · rfl
  · rfl

/-- On a stack of so many frames, a message is written within the limit that fits the stack. -/
theorem Dialect.serializeOnStack_outcome
    (d : Dialect) (frames : Int) (m : Message) :
    (d.serializeOnStack frames m.toValue).outcome =
      (d.serialize (clampDepth frames standardReserve standardDepth) m).mapError
        WriteFault.toFault := by
  have hclamp := clampDepthLogged_outcome frames standardReserve standardDepth
  simp only [serializeOnStack, bind, Logged.andThen, hclamp, serializeValue,
    Value.toMessage?_toValue]
  rfl

/-- A reader made without overriding settings reads in the dialect it is made from, within the
limit that fits the stack. -/
theorem Reader.make_outcome
    {origin : Origin} {d : Dialect} (h : (dialectOf origin (.dict [])).outcome = .ok d)
    (frames : Int) (maxSize depthLimit : Option Int) :
    (Reader.make frames origin (.dict []) maxSize depthLimit).outcome =
      .ok ⟨d, maxSize.getD standardSize,
        clampDepth frames standardReserve (depthLimit.getD standardDepth)⟩ := by
  have hclamp := clampDepthLogged_outcome frames standardReserve (depthLimit.getD standardDepth)
  have hoverrides : checkOverrides (.dict []) = .ok () := by
    rfl
  simp only [make, bind, Logged.andThen, Logged.of, hoverrides, mapError_ok, h, hclamp]
  split
  · rfl
  · rfl

/-- A reader without a size limit reads a message back from its spelling. -/
theorem Reader.readValue_spell
    {r : Reader} (hsize : r.maxSize = 0)
    (hvisible : r.dialect.Visible) (hkeyword : StartsInk r.dialect.offsetKeyword) {m : Message}
    (hwell : Message.WellFormed r.dialect none m)
    (hplain : Message.Unambiguous r.dialect none m [])
    (hdepth : (Message.depth m : Int) ≤ r.depthLimit) :
    (r.readValue (.str (String.ofList (Message.spell r.dialect none m [])))).outcome = .ok m := by
  have hrefuses : ∀ text, ¬ r.Refuses text := by
    intro text
    simp [Refuses, hsize]
  have hreads := Context.reads_spell r.context hvisible hkeyword rfl m [] [] hwell hplain
    (by simpa [context] using hdepth) (Dialect.EndsBefore.nil _ _) (Context.Reads.bodyAtEnd rfl)
  rw [Reader.readValue_eq_ok_iff]
  refine ⟨hrefuses _, false, ⟨[], []⟩, ?_⟩
  rw [Value.display, String.toList_ofList]
  exact hreads

/-- A well-formed message that is not too deep is written, and a reader in the same dialect reads it
back. No delimiter may be a blank, nor the start of the offset keyword, because blanks are skipped
around tokens. -/
theorem Reader.readValue_serialize
    (d : Dialect) (frames : Int) (m : Message)
    (hvisible : d.Visible) (hkeyword : StartsInk d.offsetKeyword)
    (hwell : Message.WellFormed d none m)
    (hplain : Message.Unambiguous d none m [])
    (hdepth : (Message.depth m : Int) ≤ clampDepth frames standardReserve standardDepth) :
    ∃ text r,
      (d.serializeOnStack frames m.toValue).outcome = .ok text ∧
      (Reader.make frames (.dialect d) (.dict []) (some 0) none).outcome = .ok r ∧
      (r.readValue (.str text)).outcome = .ok m := by
  refine ⟨String.ofList (Message.spell d none m []),
    ⟨d, 0, clampDepth frames standardReserve standardDepth⟩, ?_, ?_, ?_⟩
  · rw [d.serializeOnStack_outcome, Dialect.serialize_eq hwell hdepth]
    rfl
  · exact Reader.make_outcome rfl frames (some 0) none
  · exact Reader.readValue_spell rfl hvisible hkeyword hwell hplain hdepth

/-- A message with quotes, marks and reference signs wherever they need quoting, and with a number
that has no offset. -/
def quotedMessage : Message :=
  [.text "it's '\x7b'", .placeholder "n," (some "plural") (some (.offset (-12))) (some [
    ("=1 #", [.reference "n,", .tag "b/>" (some [.text "#'<"]), .text "#"]),
    ("other", [.placeholder "m" (some "plural") none (some [("offset", []), ("other", [])])])])]

theorem quotedMessage_wellFormed :
    Message.WellFormed .standard none quotedMessage := by
  have hbound : 12 < leastOver maxDigits :=
    Nat.lt_of_lt_of_le (by decide : 12 < leastOver 2) (leastOver_le (by decide))
  simp [quotedMessage, Message.WellFormed, Node.WellFormed, Submessages.WellFormed,
    Format.WellFormed, Message.startsWithText, hbound]
  decide

theorem quotedMessage_unambiguous :
    Message.Unambiguous .standard none quotedMessage [] := by
  simp only [quotedMessage, Message.Unambiguous, Node.Unambiguous, Submessages.Unambiguous,
    Dialect.LooksPlain]
  decide

/-- The message needs every kind of quoting, and is read back. -/
theorem Reader.readValue_serialize_quotedMessage :
    Dialect.standard.Visible ∧ StartsInk Dialect.standard.offsetKeyword ∧
      Message.WellFormed .standard none quotedMessage ∧
      Message.Unambiguous .standard none quotedMessage [] ∧
      (Message.depth quotedMessage : Int) ≤ clampDepth 1000 standardReserve standardDepth ∧
      ∃ text r,
        (Dialect.standard.serializeOnStack 1000 (Message.toValue quotedMessage)).outcome =
          .ok text ∧
        (Reader.make 1000 (.dialect .standard) (.dict []) (some 0) none).outcome = .ok r ∧
        (r.readValue (.str text)).outcome = .ok quotedMessage :=
  ⟨by decide, by decide, quotedMessage_wellFormed, quotedMessage_unambiguous, by decide,
    Reader.readValue_serialize .standard 1000 quotedMessage (by decide) (by decide)
      quotedMessage_wellFormed quotedMessage_unambiguous (by decide)⟩

end MessageFormat
