import MessageFormat.Proofs.Locality.Steps

/-!
# Readings that show their end

A placeholder, a reference and a tag show their own end, and so does the content of a tag with its
closing tag. Text, sub-messages and open bodies end where something else begins.

What shows its end is read from its own characters, and everything else depends on the next
character as well, but on no other (`Reads.isLocal`). The proof is one induction over derivations,
in which each rule is a chain of local steps. Only the offset keyword is looked for as a whole. It
cannot reach past the placeholder if the closer is no part of it (`readOffsetClause_then_local`).
-/

namespace MessageFormat

/-- A node that shows its own end. -/
def Node.Delimited : Node → Prop
  | .text _ => False
  | _ => True

/-- A piece that shows its own end. -/
def Piece.Delimited : Piece → Prop
  | .node n => n.Delimited
  | .closingTag _ => True

namespace Reading

/-- What is read shows its own end. -/
def Delimited : Reading → Prop
  | .body b => b.closed = true
  | .piece _ x | .markup x => x.Delimited
  | .placeholder _ => True
  | .submessages _ => False

/-- A text may follow what is read. -/
def Fits (x : Reading) (q : Place) (tail : List Char) : Prop :=
  x.Delimited ∨ q.BeginsLike tail

/-- Pieces and markup begin with a character. -/
def StartsAt (p : Place) : Reading → Prop
  | .piece first _ => p.peek = some first
  | .markup _ => ∃ first, p.peek = some first
  | _ => True

end Reading

namespace Context

variable {cx : Context} {p q r s t : Place}

/-- A node that is no text is told by its character alone. -/
theorem atom?_of_delimited
    {c : Char} {next : Option Char} {node : Node}
    (h : cx.atom? c next = some node) (hnode : node.Delimited) (next' : Option Char) :
    cx.atom? c next' = some node := by
  unfold atom? at h ⊢
  split at h
  · cases h
    exact hnode.elim
  · split at h
    · next hcloser href => rw [if_neg hcloser, if_pos href, h]
    · split at h
      · cases h
        exact hnode.elim
      · cases h

/-- A body that ends with a closing tag takes its characters. -/
theorem Reads.left_lt_of_closed
    {body : Body} (h : Reads cx p (.body body) q) (hclosed : body.closed = true) :
    q.left < p.left := by
  cases h with
  | bodyAtEnd hpeek => cases hclosed
  | bodyEnded hpeek hends => cases hclosed
  | bodyClosed hpeek hends hpiece => exact hpiece.left_lt hpeek
  | bodyNode hpeek hends hpiece hbody =>
      exact Nat.lt_of_le_of_lt (Place.Follows.left_le hbody.follows) (hpiece.left_lt hpeek)

/-- Markup that shows its own end has a character behind its opener. -/
theorem Reads.markup_left_lt
    {piece : Piece} (h : Reads cx p (.markup piece) q) (hpiece : piece.Delimited) :
    q.left < p.advance.left := by
  cases h with
  | keptMarkup hhead => exact hpiece.elim
  | closingTag hhead => exact Dialect.readTagHead_advance_lt hhead nofun
  | emptyTag hhead => exact Dialect.readTagHead_advance_lt hhead nofun
  | tag hhead henter hbody hclosed =>
      exact Nat.lt_of_le_of_lt (Place.Follows.left_le hbody.follows)
        (Dialect.readTagHead_advance_lt hhead nofun)

/-- The keyword does not reach past a character that is no part of it. -/
theorem prefix_of_mem
    {c : Char} {keyword window tail : List Char} (hc : c ∉ keyword) (hmem : c ∈ window)
    (h : keyword <+: window ++ tail) (rest : List Char) :
    keyword <+: window ++ rest := by
  rcases List.prefix_or_prefix_of_prefix h (List.prefix_append window tail) with hle | hge
  · exact hle.trans (List.prefix_append window rest)
  · exact absurd (hge.subset hmem) hc

/-- After an offset clause, anything may follow what ends behind the closer of the placeholder. -/
theorem readOffsetClause_then_local
    {d : Dialect} (hkeyword : d.closer ∉ d.offsetKeyword.toList)
    {type : String} {offset : Option Int} {step : Place → Place → Prop}
    (hoffset : d.readOffsetClause type p = .ok (offset, r)) (hstep : Local step anyText r q)
    (hbehind : q.Behind r d.closer) :
    Local (fun a c => ∃ b, d.readOffsetClause type a = .ok (offset, b) ∧ step b c) anyText p q := by
  refine (Dialect.readOffsetClause_local hoffset).seq hstep ?_
  intro window tail hrest _
  refine ⟨Place.beginsLike_of_lt hbehind.left_lt hrest, ?_⟩
  intro hprefix
  rw [hrest]
  exact prefix_of_mem hkeyword (hbehind.mem_window hrest) hprefix q.rest

theorem readCloser_behind
    {d : Dialect} (h : d.readCloser p = .ok q) :
    q.Behind p d.closer := by
  obtain ⟨hcloser, rfl⟩ := Dialect.readCloser_eq_ok_iff.mp h
  exact (Place.behind_advance hcloser).of_follows p.skip_follows

/-- What shows its own end is read from its own characters, in front of any other text. Everything
else that is read depends on the next character only. -/
theorem Reads.isLocal
    {x : Reading} (h : Reads cx p x q) (hseam : cx.seam = none)
    (hkeyword : cx.dialect.closer ∉ cx.dialect.offsetKeyword.toList) (hstart : x.StartsAt p) :
    Local (fun a b => Reads cx a x b) (x.Fits q) p q := by
  induction h with
  | @bodyAtEnd cx p hpeek =>
      refine ((stay_local p).mono ?_).weaken fun tail h => h.resolve_left nofun
      rintro a b ⟨hp, rfl⟩
      exact .bodyAtEnd (hp.trans hpeek)
  | @bodyEnded cx p c hpeek hends =>
      refine ((stay_local p).mono ?_).weaken fun tail h => h.resolve_left nofun
      rintro a b ⟨hp, rfl⟩
      exact .bodyEnded (hp.trans hpeek) hends
  | bodyClosed hpeek hends hpiece ih =>
      have hlocal := (ih hseam hkeyword hpeek).peek_of_lt (hpiece.left_lt hpeek)
      refine (hlocal.mono ?_).weaken fun tail _ => Or.inl trivial
      rintro a b ⟨hp, hpiece⟩
      exact .bodyClosed (hp.trans hpeek) hends hpiece
  | @bodyNode cx p q r c node body hpeek hends hpiece hbody ihpiece ihbody =>
      have hnode := (ihpiece hseam hkeyword hpeek).peek_of_lt (hpiece.left_lt hpeek)
      refine (hnode.seq (ihbody hseam hkeyword trivial) ?_).mono ?_
      · rintro window tail hrest (hclosed | hlike)
        · exact Or.inr (Place.beginsLike_of_lt (hbody.left_lt_of_closed hclosed) hrest)
        · exact Or.inr (hlike.append hrest)
      · rintro a e ⟨b, ⟨hp, hpiece⟩, hbody⟩
        exact .bodyNode (hp.trans hpeek) hends hpiece hbody
  | @atom cx p c node hatom =>
      have htake := take_local hstart
      cases node with
      | text s =>
          refine ((htake.seq_any (stay_local p.advance)).mono ?_).weaken
            fun tail h => h.resolve_left id
          rintro a e ⟨_, ⟨-, rfl⟩, hnext, rfl⟩
          exact .atom (hnext ▸ hatom)
      | placeholder id type format subs =>
          refine (htake.mono ?_).weaken fun tail _ => trivial
          rintro a _ ⟨-, rfl⟩
          exact .atom (atom?_of_delimited hatom trivial _)
      | reference id =>
          refine (htake.mono ?_).weaken fun tail _ => trivial
          rintro a _ ⟨-, rfl⟩
          exact .atom (atom?_of_delimited hatom trivial _)
      | tag name children =>
          refine (htake.mono ?_).weaken fun tail _ => trivial
          rintro a _ ⟨-, rfl⟩
          exact .atom (atom?_of_delimited hatom trivial _)
  | opened hatom hopener hnode ih =>
      have hlocal := (take_local hstart).seq_any (ih hseam hkeyword trivial)
      refine (hlocal.mono ?_).weaken fun tail _ => Or.inl trivial
      rintro a e ⟨_, ⟨-, rfl⟩, hnode⟩
      exact .opened (hopener ▸ atom?_opener _ _) hopener hnode
  | @marked cx p q c piece hatom htags hopener hmarkup ih =>
      have hlook : q.left < p.advance.left ∨
          ∀ tail, (Reading.markup piece).Fits q tail → q.BeginsLike tail := by
        by_cases hpiece : piece.Delimited
        · exact Or.inl (hmarkup.markup_left_lt hpiece)
        · exact Or.inr fun tail h => h.resolve_left hpiece
      refine ((ih hseam hkeyword ⟨c, hstart⟩).peekNext hstart hmarkup.follows hlook).mono ?_
      rintro a b ⟨hnext, hmarkup⟩
      exact .marked (hnext ▸ hatom) htags hopener hmarkup
  | @text cx p c hraw =>
      have hscan : p.scan cx.dialect cx.mode =
        ((p.scan cx.dialect cx.mode).1, (p.scan cx.dialect cx.mode).2) := rfl
      refine ((scan_local hscan).mono ?_).weaken fun tail h => h.resolve_left id
      intro a b hab
      have htext := Reads.text (p := a) hraw
      rwa [hab] at htext
  | bare hhead =>
      exact ((Dialect.readHead_bare_local hhead).mono fun _ _ => .bare).weaken fun _ _ => trivial
  | typed hhead =>
      exact ((Dialect.readHead_typed_local hhead).mono fun _ _ => .typed).weaken fun _ _ => trivial
  | formatted hhead hoffset hplain hformat hcloser =>
      rw [hseam] at hoffset
      have hbehind := (readCloser_behind hcloser).of_follows (Dialect.readFormat_follows hformat)
      have hend := (Dialect.readFormat_local hformat).seq_lt (Dialect.readCloser_local hcloser)
        (readCloser_behind hcloser).left_lt
      have hrest := readOffsetClause_then_local hkeyword hoffset hend hbehind
      have hlt := Nat.lt_of_lt_of_le hbehind.left_lt
        (Dialect.readOffsetClause_follows hoffset).left_le
      have hlocal := (Dialect.readHead_formatted_local hhead).seq_lt hrest hlt
      refine (hlocal.mono ?_).weaken fun _ _ => trivial
      rintro a e ⟨b, hhead, c, hoffset, s, hformat, hcloser⟩
      exact .formatted hhead (hseam ▸ hoffset) hplain hformat hcloser
  | branching hhead hoffset hbranching henter hsubs hcomplete hcloser ih =>
      rw [hseam] at hoffset
      obtain ⟨-, hinner⟩ := enter?_eq_some henter
      have hsubsLocal := ih (by rw [hinner]; exact hseam) (by rw [hinner]; exact hkeyword) trivial
      have hbehind := (readCloser_behind hcloser).of_follows hsubs.follows
      have hend := (hsubsLocal.weaken fun _ => Or.inr).seq_lt (Dialect.readCloser_local hcloser)
        (readCloser_behind hcloser).left_lt
      have hrest := readOffsetClause_then_local hkeyword hoffset hend hbehind
      have hlt := Nat.lt_of_lt_of_le hbehind.left_lt
        (Dialect.readOffsetClause_follows hoffset).left_le
      have hlocal := (Dialect.readHead_formatted_local hhead).seq_lt hrest hlt
      refine (hlocal.mono ?_).weaken fun _ _ => trivial
      rintro a e ⟨b, hhead, c, hoffset, s, hsubs, hcloser⟩
      exact .branching hhead (hseam ▸ hoffset) hbranching henter hsubs hcomplete hcloser
  | @entriesEnded cx p hpeek =>
      refine ((stay_local p).mono ?_).weaken fun tail h => h.resolve_left id
      rintro a b ⟨hp, rfl⟩
      exact .entriesEnded (hp ▸ hpeek)
  | @entry cx p q r t selector body subs hpeek hselector hbody hcloser hsubs ihbody ihsubs =>
      have hsubsLocal := (ihsubs hseam hkeyword trivial).weaken fun _ => Or.inr
      have hskip := (skip_local r.advance).seq_like hsubsLocal
      have hnext := (take_local hcloser).seq_any hskip
      have hlt : t.left < r.left :=
        Nat.lt_of_le_of_lt hskip.follows.left_le (Place.advance_left_lt hcloser)
      have hlocal := ((Dialect.readSelector_local hselector).peek_of_lt
        (Dialect.readSelector_left_lt hselector)).seq_any
          ((ihbody hseam hkeyword trivial).seq hnext ?_)
      · refine (hlocal.mono ?_).weaken fun tail h => h.resolve_left id
        rintro a e ⟨b, ⟨hp, hselector⟩, c, hbody, _, ⟨hcloser, rfl⟩, _, rfl, hsubs⟩
        exact .entry (hp ▸ hpeek) hselector hbody hcloser hsubs
      · intro window tail hrest _
        exact Or.inr (Place.beginsLike_of_lt hlt hrest)
  | @keptMarkup cx p q hhead =>
      obtain ⟨c, hc⟩ := hstart
      have hlocal := (Dialect.readTagHead_text_local hc hhead).between
      refine (hlocal.mono ?_).weaken fun tail h => h.resolve_left id
      rintro a b ⟨hbetween, hhead⟩
      rw [hseam, ← hbetween, ← hseam]
      exact .keptMarkup hhead
  | closingTag hhead =>
      obtain ⟨c, hc⟩ := hstart
      exact ((Dialect.readTagHead_closing_local hc hhead).mono fun _ _ => .closingTag).weaken
        fun _ _ => trivial
  | emptyTag hhead =>
      obtain ⟨c, hc⟩ := hstart
      exact ((Dialect.readTagHead_empty_local hc hhead).mono fun _ _ => .emptyTag).weaken
        fun _ _ => trivial
  | tag hhead henter hbody hclosed ih =>
      obtain ⟨c, hc⟩ := hstart
      obtain ⟨-, hinner⟩ := enter?_eq_some henter
      have hbodyLocal := ih (by rw [hinner]; exact hseam) (by rw [hinner]; exact hkeyword) trivial
      have hlocal := (Dialect.readTagHead_opening_local hc hhead).seq_any hbodyLocal
      refine (hlocal.mono ?_).weaken fun _ _ => Or.inl hclosed
      rintro a e ⟨b, hhead, hbody⟩
      exact .tag hhead henter hbody hclosed

end Context

end MessageFormat
