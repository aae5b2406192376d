import MessageFormat.Proofs.Derivation.Inversion
import MessageFormat.Proofs.Lookalikes
import MessageFormat.Proofs.Nesting

/-!
# What is read again

A message that was read can be written, because it is well-formed and within the nesting limit.
Whether it is read back depends on its first selectors alone (`Reader.readValue_spell_iff`): it is
exactly if none of them looks like an offset.

That such a selector is enough to lose the message needs an argument, because the reading goes on
behind it. Whatever is read of a spelled part ends where the part ends (`RereadsBody`), so what went
wrong inside of a part cannot be made up for behind it.
-/

namespace MessageFormat

theorem Node.rest_eq_of_before
    {d : Dialect} {owner : Option String} {node : Node} {rest rest' : Message}
    (hnode : node.WellFormed d owner) (hrest' : Message.WellFormed d owner rest')
    (h : node.before rest' = node :: rest) :
    rest' = rest := by
  cases htext : Message.startsWithText [node] with
  | false =>
      rw [Node.before_of_not_text htext] at h
      exact (List.cons.inj h).2
  | true =>
      match node with
      | .text s =>
          have hs : s ≠ "" := hnode
          cases hstart : Message.startsWithText rest' with
          | false =>
              rw [Node.text_before_of_not_text hs hstart] at h
              exact (List.cons.inj h).2
          | true =>
              match rest', hrest' with
              | .text t :: rest', ⟨ht, _⟩ =>
                  rw [Node.text_before_text hs] at h
                  have hst : s ++ t = s := by
                    simpa using (List.cons.inj h).1
                  exact absurd (by simpa using hst) ht

namespace Context

/-- Whatever is read of the spelling of a node is a node and ends behind the spelling. In front of
a body it gives this node in front of another body only if no selector looks like an offset. -/
def RereadsNode (cx : Context) (node : Node) : Prop :=
  ∀ after k,
    (Message.startsWithText [node] = true → cx.dialect.EndsBefore cx.mode after) →
      ∃ c, (node.spell cx.dialect cx.referent after).head? = some c ∧ c ≠ cx.dialect.closer ∧
        ∀ piece q, Reads cx ⟨node.spell cx.dialect cx.referent after, k⟩ (.piece c piece) q →
          q = ⟨after, k⟩ ∧ ∃ node', piece = .node node' ∧
            ∀ rest rest', Message.WellFormed cx.dialect cx.referent rest' →
              node'.before rest' = node :: rest →
                node.Unmistakable cx.dialect ∧ rest' = rest

/-- Whatever is read of the spelling of a body ends where it should, and is this body only if no
selector looks like an offset. -/
def RereadsBody (cx : Context) (m : Message) : Prop :=
  ∀ after k closed q, cx.dialect.EndsBefore cx.mode after →
    Reads cx ⟨after, k⟩ (.body ⟨[], closed⟩) q →
      ∀ body r, Reads cx ⟨Message.spell cx.dialect cx.referent m after, k⟩ (.body body) r →
        r = q ∧ (body.nodes = m → Message.Unmistakable cx.dialect m)

/-- Whatever is read of the spelling of sub-messages ends before the closer and has the same
selectors, and the sub-messages are these only if no selector in them looks like an offset. -/
def RereadsSubmessages (cx : Context) (subs : Submessages) : Prop :=
  ∀ after k subs' q,
    Reads cx
        ⟨skipBlanks (Submessages.spell cx.dialect cx.referent subs (cx.dialect.closer :: after)), k⟩
        (.submessages subs') q →
      q = ⟨cx.dialect.closer :: after, k⟩ ∧ subs'.map Prod.fst = subs.map Prod.fst ∧
        (subs' = subs → Submessages.Unmistakable cx.dialect subs)

variable {cx : Context}

/-- A node that is read back is read in no other way. -/
theorem RereadsNode.of_readsNode
    {node : Node} (hnode : node.WellFormed cx.dialect cx.referent)
    (hclear : node.Unmistakable cx.dialect)
    (hreads : ∀ after k,
      (Message.startsWithText [node] = true → cx.dialect.EndsBefore cx.mode after) →
        ReadsNode cx (node.spell cx.dialect cx.referent after) node after k) :
    RereadsNode cx node := by
  intro after k hafter
  obtain ⟨c, hpeek, hne, hpiece⟩ := hreads after k hafter
  refine ⟨c, hpeek, hne, ?_⟩
  intro piece q hpiece'
  obtain ⟨rfl, rfl⟩ := hpiece'.piece_unique hpiece hpeek
  refine ⟨rfl, node, rfl, ?_⟩
  intro rest rest' hrest' hbefore
  exact ⟨hclear, Node.rest_eq_of_before hnode hrest' hbefore⟩

theorem RereadsBody.nil :
    RereadsBody cx [] := by
  intro after k closed q _ hend body r hbody
  obtain ⟨_, hplace⟩ := hbody.body_unique hend
  exact ⟨hplace, fun _ => trivial⟩

theorem RereadsBody.cons
    {node : Node} {rest : Message} (hrest : Message.WellFormed cx.dialect cx.referent rest)
    (hapart : Message.startsWithText [node] = true → Message.startsWithText rest = false)
    (hnodeReads : RereadsNode cx node) (hrestReads : RereadsBody cx rest) :
    RereadsBody cx (node :: rest) := by
  intro after k closed q hafter hend body r hbody
  obtain ⟨c, hpeek, hne, hpieces⟩ := hnodeReads (Message.spell cx.dialect cx.referent rest after) k
    (fun htext => Message.spell_ends_text hrest (hapart htext) hafter)
  rcases hbody.of_body hpeek (endsBody_of_ne hne) with
    ⟨name, hpiece, _⟩ | ⟨node', s, body', hpiece, hbody', rfl⟩
  · obtain ⟨_, node', hnode', _⟩ := hpieces _ _ hpiece
    cases hnode'
  · obtain ⟨rfl, node'', hnode', hsame⟩ := hpieces _ _ hpiece
    cases hnode'
    obtain ⟨hplace, hclear⟩ := hrestReads after k closed q hafter hend body' r hbody'
    refine ⟨hplace, ?_⟩
    intro hnodes
    obtain ⟨hnodeClear, hrestSame⟩ := hsame rest body'.nodes hbody'.wellFormed hnodes
    exact ⟨hnodeClear, hclear hrestSame⟩

/-- Sub-messages that start with a selector are read entry by entry, whatever the selector is. -/
theorem RereadsBody.of_entry
    {body : Message} {rest : Submessages}
    (hbody : RereadsBody cx body) (hrest : RereadsSubmessages cx rest)
    (hvisible : cx.dialect.Visible) (henclosing : cx.enclosing ≠ .nothing)
    {selector : String} {after : List Char} {k : List Nat} {subs : Submessages} {q : Place}
    (h : Reads cx
      ⟨skipBlanks (cx.dialect.spellText .word selector (' ' :: cx.dialect.opener ::
        Message.spell cx.dialect cx.referent body (cx.dialect.closer ::
          Submessages.spell cx.dialect cx.referent rest (cx.dialect.closer :: after)))), k⟩
      (.submessages subs) q) :
    q = ⟨cx.dialect.closer :: after, k⟩ ∧
      ∃ body' rest', subs = Submessages.before rest' selector body' ∧
        rest'.map Prod.fst = rest.map Prod.fst ∧
        (body' = body → Message.Unmistakable cx.dialect body) ∧
        (rest' = rest → Submessages.Unmistakable cx.dialect rest) := by
  by_cases hselector : selector = ""
  · subst hselector
    have hskip : skipBlanks (cx.dialect.spellText .word "" (' ' :: cx.dialect.opener ::
        Message.spell cx.dialect cx.referent body (cx.dialect.closer ::
          Submessages.spell cx.dialect cx.referent rest (cx.dialect.closer :: after)))) =
        cx.dialect.opener :: Message.spell cx.dialect cx.referent body (cx.dialect.closer ::
          Submessages.spell cx.dialect cx.referent rest (cx.dialect.closer :: after)) :=
      Dialect.skipBlanks_cons_visible hvisible .opener _
    have hne : cx.dialect.opener ≠ cx.dialect.closer := cx.dialect.char_ne .opener .closer
    rw [hskip] at h
    obtain ⟨_, _, _, _, _, hread, _⟩ := h.of_entry (by simp [Place.peek, hne])
    have hstop := cx.dialect.stops_opener .selector
    simp [Dialect.readSelector, Place.scan, Dialect.scan, Dialect.scanFrom_stop hstop,
      Place.expected] at hread
  · rw [Dialect.skipBlanks_spellText hvisible rfl hselector] at h
    obtain ⟨c, tail, hcons, hc⟩ := Dialect.spellText_eq_cons
      (Dialect.stops_quote_of_visible hvisible .word) hselector
      (' ' :: cx.dialect.opener :: Message.spell cx.dialect cx.referent body
        (cx.dialect.closer :: Submessages.spell cx.dialect cx.referent rest
          (cx.dialect.closer :: after)))
    have hne : c ≠ cx.dialect.closer := Dialect.ne_of_stops hc (cx.dialect.stops_closer .word)
    obtain ⟨selector', s, r, body', rest', hread, hbody', hrest', rfl⟩ :=
      h.of_entry (by simp [Place.peek, hcons, hne])
    rw [Dialect.readSelector_spell hvisible hselector] at hread
    cases hread
    obtain ⟨rfl, hbodyClear⟩ := hbody _ _ _ _ (Dialect.endsBefore_cons.mpr cx.stops_mode_closer)
      (reads_closer henclosing _ k) body' r hbody'
    obtain ⟨hplace, hkeys, hrestClear⟩ := hrest after k rest' q hrest'
    exact ⟨hplace, body'.nodes, rest', rfl, hkeys, hbodyClear, hrestClear⟩

theorem RereadsSubmessages.nil
    (hvisible : cx.dialect.Visible) :
    RereadsSubmessages cx [] := by
  intro after k subs' q h
  have hskip : skipBlanks (cx.dialect.closer :: after) = cx.dialect.closer :: after :=
    Dialect.skipBlanks_cons_visible hvisible .closer after
  rw [Submessages.spell, hskip] at h
  obtain ⟨rfl, rfl⟩ := h.of_closer rfl
  exact ⟨rfl, rfl, fun _ => trivial⟩

theorem RereadsSubmessages.cons
    (hvisible : cx.dialect.Visible) (henclosing : cx.enclosing ≠ .nothing)
    {selector : String} {body : Message} {rest : Submessages}
    (hselector : selector ≠ "") (hnew : selector ∉ rest.map Prod.fst)
    (hbody : RereadsBody cx body) (hrest : RereadsSubmessages cx rest) :
    RereadsSubmessages cx ((selector, body) :: rest) := by
  intro after k subs' q h
  rw [Dialect.skipBlanks_spell_cons hvisible _ hselector] at h
  rw [← Dialect.skipBlanks_spellText hvisible (m := .word) rfl hselector] at h
  obtain ⟨rfl, body', rest', rfl, hkeys, hbodyClear, hrestClear⟩ :=
    hbody.of_entry hrest hvisible henclosing h
  rw [← hkeys] at hnew
  rw [Submessages.before_of_not_mem hnew]
  refine ⟨rfl, by simp [hkeys], ?_⟩
  intro hsubs
  simp only [List.cons.injEq, Prod.mk.injEq, true_and] at hsubs
  exact ⟨hbodyClear hsubs.1, hrestClear hsubs.2⟩

/-- What is read of a branching placeholder has the offset that stands there, or another one if its
first selector looks like an offset. -/
theorem RereadsNode.placeholder
    (h : cx.dialect.Ordinary) (hseam : cx.seam = none)
    {id type selector : String} {format : Option Format} {body : Message} {rest : Submessages}
    (hnode : Node.WellFormed cx.dialect cx.referent
      (.placeholder id (some type) format (some ((selector, body) :: rest))))
    (hbody : RereadsBody
      { cx with depth := cx.depth + 1, enclosing := .placeholder id type } body)
    (hrest : RereadsSubmessages
      { cx with depth := cx.depth + 1, enclosing := .placeholder id type } rest) :
    RereadsNode cx (.placeholder id (some type) format (some ((selector, body) :: rest))) := by
  obtain ⟨hid, htype, hbranching, hformat, _, hnodup, hsubs⟩ := hnode
  have hselector : selector ≠ "" := hsubs.1
  rw [List.map_cons, List.nodup_cons] at hnodup
  intro after k _
  have hne : cx.dialect.opener ≠ cx.dialect.closer := cx.dialect.char_ne .opener .closer
  refine ⟨cx.dialect.opener, rfl, hne, ?_⟩
  intro piece q hpiece
  obtain ⟨node', rfl, hnode'⟩ := hpiece.of_opener
  have hhead := Dialect.readHead_spell_formatted h.visible hid htype
    (cx.dialect.spellOffsetClause format (Submessages.spell cx.dialect
      (cx.dialect.ownerOf id type) ((selector, body) :: rest) (cx.dialect.closer :: after))) k
  obtain ⟨offset, inner, s, t, subs', hclause, henter, hsubs', hcloser, rfl⟩ :=
    hnode'.of_branching hhead hbranching
  obtain ⟨_, rfl⟩ := enter?_eq_some henter
  rw [hseam] at hclause
  obtain ⟨first, rfl, hfirst⟩ :=
    h.readOffsetClause_spell_cons hbranching hformat hsubs hclause
  obtain ⟨rfl, body', rest', rfl, hkeys, hbodyClear, hrestClear⟩ :=
    hbody.of_entry hrest h.visible (by simp) hsubs'
  rw [Dialect.readCloser_spell h.visible] at hcloser
  cases hcloser
  refine ⟨rfl, _, rfl, ?_⟩
  intro others others' _ hbefore
  rw [Node.before_of_not_text rfl] at hbefore
  simp only [List.cons.injEq, Node.placeholder.injEq, Option.some.injEq, true_and] at hbefore
  obtain ⟨⟨hoffset, hsame⟩, hothers⟩ := hbefore
  obtain ⟨rfl, hplain⟩ := hfirst hoffset.symm
  rw [Submessages.before_of_not_mem (hkeys ▸ hnodup.1)] at hsame
  simp only [List.cons.injEq, Prod.mk.injEq, true_and] at hsame
  refine ⟨⟨?_, hbodyClear hsame.1, hrestClear hsame.2⟩, hothers⟩
  rintro hnone entry ⟨⟩
  exact hplain hnone

theorem RereadsNode.tag
    (hvisible : cx.dialect.Visible) {name : String} {children : Message}
    (hnode : Node.WellFormed cx.dialect cx.referent (.tag name (some children)))
    (hchildren : RereadsBody
      { cx with depth := cx.depth + 1, enclosing := .tag name } children) :
    RereadsNode cx (.tag name (some children)) := by
  obtain ⟨htags, hname, _, _⟩ := hnode
  intro after k _
  have hne : cx.dialect.tagOpener ≠ cx.dialect.closer := cx.dialect.char_ne .tagOpener .closer
  refine ⟨cx.dialect.tagOpener, rfl, hne, ?_⟩
  intro piece q hpiece
  have hmarkup := hpiece.of_tagOpener htags (Dialect.peek_spellTag hvisible hname _ k)
  obtain ⟨inner, body, henter, hbody, rfl⟩ :=
    hmarkup.of_tag (Dialect.readTagHead_spell_opening hvisible htags hname _ k)
  obtain ⟨_, rfl⟩ := enter?_eq_some henter
  have hend := reads_closingTag { cx with depth := cx.depth + 1, enclosing := .tag name }
    hvisible htags hname rfl after k
  obtain ⟨rfl, hclear⟩ := hchildren _ k true ⟨after, k⟩
    (Dialect.endsBefore_cons.mpr (Dialect.stops_tagOpener htags _)) hend body q hbody
  refine ⟨rfl, _, rfl, ?_⟩
  intro others others' _ hbefore
  rw [Node.before_of_not_text rfl] at hbefore
  simp only [List.cons.injEq, Node.tag.injEq, true_and] at hbefore
  obtain ⟨hsame, hothers⟩ := hbefore
  refine ⟨?_, hothers⟩
  split at hsame
  · cases hsame
  · exact hclear (Option.some.inj hsame)

mutual

theorem rereadsNode
    (cx : Context) (h : cx.dialect.Ordinary) (hseam : cx.seam = none) (node : Node)
    (hnode : node.WellFormed cx.dialect cx.referent) :
    RereadsNode cx node := by
  match node with
  | .text s =>
      exact RereadsNode.of_readsNode hnode trivial
        (fun after k hafter => readsNode_text hnode (hafter rfl) k)
  | .reference id =>
      exact RereadsNode.of_readsNode hnode trivial
        (fun after k _ => readsNode_reference hnode after k)
  | .placeholder id none format subs =>
      have hparts := hnode
      obtain ⟨_, rfl, rfl⟩ := hparts
      exact RereadsNode.of_readsNode hnode trivial
        (fun after k _ => readsNode_bare h.visible hnode after k)
  | .placeholder id (some type) format none =>
      exact RereadsNode.of_readsNode hnode trivial
        (fun after k _ => readsNode_leaf h.visible hseam hnode
          (Node.Unmistakable.unambiguous h _ after hnode trivial) k)
  | .placeholder id (some type) format (some []) =>
      obtain ⟨_, _, _, _, hcomplete, _⟩ := hnode
      simp [Submessages.isComplete] at hcomplete
  | .placeholder id (some type) format (some ((selector, body) :: rest)) =>
      have hparts := hnode
      obtain ⟨_, _, _, _, _, hnodup, _, hbody, hrest⟩ := hparts
      rw [List.map_cons, List.nodup_cons] at hnodup
      have hbodyReads := rereadsBody
        { cx with depth := cx.depth + 1, enclosing := .placeholder id type } h hseam body hbody
      have hrestReads := rereadsSubmessages
        { cx with depth := cx.depth + 1, enclosing := .placeholder id type } h hseam (by simp)
        rest hrest hnodup.2
      exact RereadsNode.placeholder h hseam hnode hbodyReads hrestReads
  | .tag name none =>
      exact RereadsNode.of_readsNode hnode trivial
        (fun after k _ => readsNode_emptyTag h.visible hnode after k)
  | .tag name (some children) =>
      have hparts := hnode
      obtain ⟨_, _, _, hchildren⟩ := hparts
      have hchildrenReads := rereadsBody
        { cx with depth := cx.depth + 1, enclosing := .tag name } h hseam children hchildren
      exact RereadsNode.tag h.visible hnode hchildrenReads

theorem rereadsBody
    (cx : Context) (h : cx.dialect.Ordinary) (hseam : cx.seam = none) (m : List Node)
    (hm : Message.WellFormed cx.dialect cx.referent m) :
    RereadsBody cx m := by
  match m with
  | [] => exact RereadsBody.nil
  | node :: rest =>
      obtain ⟨hnode, hapart, hrest⟩ := hm
      exact RereadsBody.cons hrest hapart (rereadsNode cx h hseam node hnode)
        (rereadsBody cx h hseam rest hrest)

theorem rereadsSubmessages
    (cx : Context) (h : cx.dialect.Ordinary) (hseam : cx.seam = none)
    (henclosing : cx.enclosing ≠ .nothing) (subs : List (String × List Node))
    (hsubs : Submessages.WellFormed cx.dialect cx.referent subs)
    (hnodup : (subs.map Prod.fst).Nodup) :
    RereadsSubmessages cx subs := by
  match subs with
  | [] => exact RereadsSubmessages.nil h.visible
  | (selector, body) :: rest =>
      obtain ⟨hselector, hbody, hrest⟩ := hsubs
      rw [List.map_cons, List.nodup_cons] at hnodup
      exact RereadsSubmessages.cons h.visible henclosing hselector hnodup.1
        (rereadsBody cx h hseam body hbody)
        (rereadsSubmessages cx h hseam henclosing rest hrest hnodup.2)

end

end Context

/-- In an ordinary dialect, a well-formed message within the limit is read back from its spelling
exactly if no selector looks like an offset. -/
theorem Reader.readValue_spell_iff
    {r : Reader} (hsize : r.maxSize = 0) (h : r.dialect.Ordinary) {m : Message}
    (hwell : Message.WellFormed r.dialect none m)
    (hdepth : (Message.depth m : Int) ≤ r.depthLimit) :
    (r.readValue (.str (String.ofList (Message.spell r.dialect none m [])))).outcome = .ok m ↔
      Message.Unmistakable r.dialect m := by
  constructor
  · intro hread
    obtain ⟨_, closed, p, hreads⟩ := Reader.readValue_eq_ok_iff.mp hread
    rw [Value.display, String.toList_ofList] at hreads
    have hrereads := Context.rereadsBody r.context h rfl m hwell
    exact (hrereads [] [] false ⟨[], []⟩ (Dialect.EndsBefore.nil _ _)
      (Context.Reads.bodyAtEnd rfl) _ p hreads).2 rfl
  · intro hclear
    exact Reader.readValue_spell hsize h.visible h.startsInk_keyword hwell
      (Message.Unmistakable.unambiguous h m [] hwell hclear) hdepth

theorem clampDepth_pos
    {frames reserve requested : Int} (h : 1 ≤ requested) :
    1 ≤ clampDepth frames reserve requested := by
  unfold clampDepth safeDepth
  split
  · exact h
  · omega

/-- Without settings, the dialect is the standard one. -/
theorem dialectOf_null :
    (Reader.dialectOf (.settings .null) (.dict [])).outcome = .ok .standard := by
  rfl

/-- With standard settings, a message that was read is always written, and it is read back exactly
if no first selector in it looks like an offset: writing does not quote the offset keyword. -/
theorem Reader.readValue_again_iff
    (frames : Int) (maxSize : Option Int) (v : Value) (m : Message) (first : Reader)
    (hfirst : (Reader.make frames (.settings .null) (.dict []) maxSize none).outcome =
      .ok first)
    (hread : (first.readValue v).outcome = .ok m) :
    ∃ text again,
      (Dialect.standard.serializeOnStack frames m.toValue).outcome = .ok text ∧
      (Reader.make frames (.settings .null) (.dict []) (some 0) none).outcome = .ok again ∧
      ((again.readValue (.str text)).outcome = .ok m ↔ Message.Unmistakable .standard m) := by
  rw [Reader.make_outcome dialectOf_null] at hfirst
  cases hfirst
  obtain ⟨_, closed, p, hreads⟩ := Reader.readValue_eq_ok_iff.mp hread
  have hwell : Message.WellFormed .standard none m := hreads.wellFormed
  have hlimit : 1 ≤ clampDepth frames standardReserve standardDepth :=
    clampDepth_pos (by decide)
  have hdepth : (Message.depth m : Int) ≤ clampDepth frames standardReserve standardDepth := by
    have hnested := Reader.depth_le_of_readValue hread
    simp only [Option.getD_none] at hnested
    omega
  refine ⟨String.ofList (Message.spell .standard none m []),
    ⟨.standard, 0, clampDepth frames standardReserve standardDepth⟩, ?_, ?_, ?_⟩
  · rw [Dialect.standard.serializeOnStack_outcome, Dialect.serialize_eq hwell hdepth]
    rfl
  · exact Reader.make_outcome dialectOf_null frames (some 0) none
  · exact Reader.readValue_spell_iff rfl Dialect.standard_ordinary hwell hdepth

/-- A number without an offset whose first selector starts with the offset keyword. -/
def offsetSelectorMessage : Message :=
  [.placeholder "n" (some "plural") none (some [
    ("offset:1", [.text "a"]), ("other", [.text "b"])])]

theorem offsetSelectorMessage_mistakable :
    ¬ Message.Unmistakable .standard offsetSelectorMessage := by
  rintro ⟨⟨hfirst, _⟩, _⟩
  exact hfirst rfl _ rfl (by decide) (by decide)

theorem make_standardReader :
    (Reader.make 1000 (.settings .null) (.dict []) none none).outcome =
      .ok ⟨.standard, standardSize, 100⟩ := by
  rw [Reader.make_outcome dialectOf_null]
  rfl

theorem readValue_offsetSelector :
    ((⟨.standard, standardSize, 100⟩ : Reader).readValue (.str
        "\x7bn, plural, 'o'ffset:1\x7ba\x7d other\x7bb\x7d\x7d")).outcome =
      .ok offsetSelectorMessage := by
  decide +kernel

/-- A quote keeps the selector from being an offset; the message is written without it. -/
theorem Reader.readValue_again_iff_offsetSelector :
    (Reader.make 1000 (.settings .null) (.dict []) none none).outcome =
        .ok ⟨.standard, standardSize, 100⟩ ∧
      ((⟨.standard, standardSize, 100⟩ : Reader).readValue (.str
        "\x7bn, plural, 'o'ffset:1\x7ba\x7d other\x7bb\x7d\x7d")).outcome =
          .ok offsetSelectorMessage ∧
      ¬ Message.Unmistakable .standard offsetSelectorMessage ∧
      ∃ text again,
        (Dialect.standard.serializeOnStack 1000
          (Message.toValue offsetSelectorMessage)).outcome = .ok text ∧
        (Reader.make 1000 (.settings .null) (.dict []) (some 0) none).outcome = .ok again ∧
        ((again.readValue (.str text)).outcome = .ok offsetSelectorMessage ↔
          Message.Unmistakable .standard offsetSelectorMessage) :=
  ⟨make_standardReader, readValue_offsetSelector, offsetSelectorMessage_mistakable,
    Reader.readValue_again_iff 1000 none _ _ _ make_standardReader readValue_offsetSelector⟩

/-- Not every message that is read is read back from what is written. -/
theorem Reader.not_readValue_again :
    ¬ ∀ (v : Value) (m : Message),
      ((⟨.standard, standardSize, 100⟩ : Reader).readValue v).outcome = .ok m →
        ∃ text,
          (Dialect.standard.serializeOnStack 1000 m.toValue).outcome = .ok text ∧
          ((⟨.standard, 0, 100⟩ : Reader).readValue (.str text)).outcome = .ok m := by
  intro hall
  obtain ⟨text, htext, hread⟩ := hall _ _ readValue_offsetSelector
  have hwritten : (Dialect.standard.serializeOnStack 1000
      (Message.toValue offsetSelectorMessage)).outcome =
        .ok "\x7bn, plural, offset:1 \x7ba\x7d other \x7bb\x7d\x7d" := by
    decide +kernel
  cases hwritten.symm.trans htext
  have hlost : ((⟨.standard, 0, 100⟩ : Reader).readValue
      (.str "\x7bn, plural, offset:1 \x7ba\x7d other \x7bb\x7d\x7d")).outcome ≠
        .ok offsetSelectorMessage := by
    decide +kernel
  exact hlost hread

end MessageFormat
