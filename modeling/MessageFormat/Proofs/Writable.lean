import MessageFormat.Proofs.RoundTrip
import MessageFormat.Proofs.Walks

/-!
# What can be written

Writing refuses parts of a message that no text stands for. A message without such parts is
`Writable`, which is said of its parts alone, without regard to nesting: tokens are not empty, a
placeholder has complete sub-messages exactly if its type takes them, offsets stand where they may,
references stand where their number is known, and tags where they are allowed.

Writing is a walk within a nesting limit that is fit for writable messages
(`Dialect.serialize_bounds`): it answers with a text exactly if the message is writable and within
the limit, and names the limit only if the message is deeper.
-/

namespace MessageFormat

/-- A format that can be written after a type that takes no sub-messages. -/
def Format.Writable : Format → Prop
  | .text s => s.toList.all isBlank = false
  | .offset n => n.natAbs < leastOver maxDigits

/-- A format that can be written in front of sub-messages of a type: only an offset can. -/
def Format.WritableOffset (d : Dialect) (type : String) : Format → Prop
  | .text _ => False
  | .offset n => d.isNumeric type = true ∧ n.natAbs < leastOver maxDigits

mutual

/-- A node that can be written in a body of this owner. -/
def Node.Writable (d : Dialect) (owner : Option String) : Node → Prop
  | .text _ => True
  | .reference id => owner = some id
  | .placeholder id none format subs => id ≠ "" ∧ format = none ∧ subs = none
  | .placeholder id (some type) format none =>
      id ≠ "" ∧ type ≠ "" ∧ d.isBranching type = false ∧ ∀ f, format = some f → f.Writable
  | .placeholder id (some type) format (some subs) =>
      id ≠ "" ∧ type ≠ "" ∧ d.isBranching type = true ∧
        Submessages.isComplete subs requiredSelector = true ∧
        (∀ f, format = some f → f.WritableOffset d type) ∧
        Submessages.Writable d (d.ownerOf id type) subs
  | .tag name none => d.tagsAllowed = true ∧ name ≠ ""
  | .tag name (some children) =>
      d.tagsAllowed = true ∧ name ≠ "" ∧ Message.Writable d none children

/-- The nodes of a body of this owner can be written. -/
def Message.Writable (d : Dialect) (owner : Option String) : List Node → Prop
  | [] => True
  | node :: rest => Node.Writable d owner node ∧ Message.Writable d owner rest

/-- Sub-messages whose bodies have this owner can be written. -/
def Submessages.Writable (d : Dialect) (owner : Option String) :
    List (String × List Node) → Prop
  | [] => True
  | (selector, body) :: rest =>
      selector ≠ "" ∧ Message.Writable d owner body ∧ Submessages.Writable d owner rest

end

namespace Dialect

variable {d : Dialect} {g : Guard} {depth : Nat} {fit fit' fit'' : Prop}

/-- A part that is refused for a reason. -/
theorem unwritable_bounds
    {reason : Unwritable} (hunfit : ¬ fit) :
    g.Bounds .tooDeep depth fit (unwritable reason : Written) :=
  .unfit (by simp) hunfit

theorem refuse_bounds
    {reason : Option Unwritable} (hunfit : ¬ fit) :
    g.Bounds .tooDeep depth fit (refuse reason : Written) := by
  cases reason with
  | none => exact .unfit (by simp) hunfit
  | some reason => exact unwritable_bounds hunfit

theorem writeToken_bounds
    (d : Dialect) (hg : g.depth ≤ g.limit) (kind : TokenKind) (token : String) :
    g.Bounds .tooDeep 0 (token ≠ "") (d.writeToken kind token) := by
  unfold writeToken
  by_cases htoken : token = ""
  · rw [if_pos (by simp [htoken])]
    exact unwritable_bounds (by simp [htoken])
  · rw [if_neg (by simp [htoken])]
    exact .leaf hg htoken

theorem writeNumber_bounds
    (hg : g.depth ≤ g.limit) (n : Int) :
    g.Bounds .tooDeep 0 (n.natAbs < leastOver maxDigits) (writeNumber n) := by
  unfold writeNumber
  split
  · next hn => exact .leaf hg hn
  · next hn => exact .unfit (by simp) hn

theorem decimal_not_blank
    (n : Int) :
    (decimal n).toList.all isBlank = false := by
  have hhead := head?_decimal n [' ']
  cases hdigits : (decimal n).toList with
  | nil =>
      rw [hdigits] at hhead
      exact absurd hhead (by decide)
  | cons c rest =>
      rw [hdigits] at hhead
      simp only [List.cons_append, List.head?_cons, Option.any_some] at hhead
      simp [hhead]

/-- A tag without content is written from its name if tags are allowed. -/
theorem layoutTag_empty_bounds
    {shown : Option String} {name : Written} (hname : g.Bounds .tooDeep 0 fit name) :
    g.Bounds .tooDeep 0 (d.tagsAllowed = true ∧ fit) (d.layoutTag ⟨shown, name, none⟩) := by
  by_cases htags : d.tagsAllowed = true
  · rw [layoutTag, if_pos htags]
    exact (hname.andReturn _).congr rfl (by simp [htags])
  · rw [layoutTag, if_neg htags]
    exact refuse_bounds (by simp [htags])

/-- A tag is written from its name and its content if tags are allowed. -/
theorem layoutTag_bounds
    {shown : Option String} {name children : Written}
    (hname : g.Bounds .tooDeep 0 fit name)
    (hchildren : g.Bounds .tooDeep depth fit' children) :
    g.Bounds .tooDeep depth (d.tagsAllowed = true ∧ fit ∧ fit')
      (d.layoutTag ⟨shown, name, some children⟩) := by
  by_cases htags : d.tagsAllowed = true
  · rw [layoutTag, if_pos htags]
    exact (hname.bind fun _ => hchildren.andReturn _).congr (Nat.zero_max depth) (by simp [htags])
  · rw [layoutTag, if_neg htags]
    exact refuse_bounds (by simp [htags])

theorem layoutSubmessage_bounds
    {selector body : Written}
    (hselector : g.Bounds .tooDeep 0 fit selector)
    (hbody : g.Bounds .tooDeep depth fit' body) :
    g.Bounds .tooDeep depth (fit ∧ fit') (d.layoutSubmessage selector body) :=
  (hselector.bind fun _ => hbody.andReturn _).congr (Nat.zero_max depth) Iff.rfl

/-- Without a type there is neither a format nor a sub-message. -/
theorem layoutPlaceholder_untyped_bounds
    {p : PlaceholderParts} (htype : p.type = none)
    (hid : g.Bounds .tooDeep 0 fit p.id)
    (hdepth : p.format = .absent ∧ p.submessages = none → depth = 0) :
    g.Bounds .tooDeep depth (fit ∧ p.format = .absent ∧ p.submessages = none)
      (d.layoutPlaceholder p) := by
  by_cases hbare : p.format = .absent ∧ p.submessages = none
  · obtain ⟨hformat, hsubs⟩ := hbare
    simp only [layoutPlaceholder, htype, hformat, hsubs]
    exact (hid.andReturn _).congr (hdepth ⟨hformat, hsubs⟩).symm (by simp)
  · simp only [layoutPlaceholder, htype]
    refine (hid.bind fun id => ?_).congr (Nat.zero_max depth) Iff.rfl
    split
    · next hformat hsubs => exact absurd ⟨hformat, hsubs⟩ hbare
    · exact refuse_bounds hbare

theorem formatPart_eq_absent_iff
    {format : Option Format} :
    formatPart format = .absent ↔ format = none := by
  match format with
  | none => simp [formatPart]
  | some (.text s) => simp [formatPart]
  | some (.offset n) => simp [formatPart]

/-- With a type, a placeholder is written from its id, its type and what follows the type. -/
theorem layoutPlaceholder_bounds
    {p : PlaceholderParts} {t : TypePart} (hparts : p.type = some t)
    (hid : g.Bounds .tooDeep 0 fit p.id)
    (htype : g.Bounds .tooDeep 0 fit' t.text)
    (hbranching : t.isBranching = true →
      g.Bounds .tooDeep depth fit'' (d.layoutBranching p t.isNumeric))
    (hplain : t.isBranching = false →
      g.Bounds .tooDeep depth fit'' (d.layoutPlain p t.shown)) :
    g.Bounds .tooDeep depth (fit ∧ fit' ∧ fit'') (d.layoutPlaceholder p) := by
  simp only [layoutPlaceholder, hparts]
  cases ht : t.isBranching with
  | true =>
      have htail := hbranching ht
      exact (hid.bind fun _ => htype.bind fun _ => htail.andReturn _).congr (by simp) Iff.rfl
  | false =>
      have htail := hplain ht
      exact (hid.bind fun _ => htype.bind fun _ => htail.andReturn _).congr (by simp) Iff.rfl

/-- A format is written unless it is blank. -/
theorem formatText_bounds
    {text written : String} {reason : Option Unwritable} (hg : g.depth ≤ g.limit) :
    g.Bounds .tooDeep 0 (text.toList.all isBlank = false)
      (if text.toList.all isBlank then refuse reason else .ok written) := by
  cases hblank : text.toList.all isBlank with
  | true => exact refuse_bounds (by simp)
  | false => exact .leaf hg rfl

/-- After a type that takes no sub-messages, a format is written. -/
theorem layoutPlain_bounds
    {p : PlaceholderParts} {shown : Option String} {format : Option Format}
    (hg : g.depth ≤ g.limit)
    (hparts : p.format = formatPart format) (hsubs : p.submessages = none) :
    g.Bounds .tooDeep 0 (∀ f, format = some f → f.Writable)
      (d.layoutPlain p shown) := by
  rw [layoutPlain, if_neg (by simp [hsubs]), hparts]
  cases format with
  | none => exact .leaf hg (by simp)
  | some format =>
      cases format with
      | text s => exact (formatText_bounds hg).congr rfl (by simp [Format.Writable])
      | offset n =>
          by_cases hn : n.natAbs < leastOver maxDigits
          · simp only [formatPart, writeNumber_eq hn]
            refine (formatText_bounds hg).congr rfl ?_
            simp [Format.Writable, hn, decimal_not_blank]
          · simp only [formatPart, writeNumber, if_neg hn]
            exact .unfit (by simp) (by simp [Format.Writable, hn])

/-- Such a type is followed by no sub-messages. -/
theorem layoutPlain_subs_bounds
    {p : PlaceholderParts} {shown : Option String} {part : SubmessagesPart}
    (hsubs : p.submessages = some part) (hunfit : ¬ fit) :
    g.Bounds .tooDeep depth fit (d.layoutPlain p shown) := by
  rw [layoutPlain, if_pos (by simp [hsubs])]
  exact refuse_bounds hunfit

/-- In front of sub-messages, an offset is written at a type that allows one. -/
theorem layoutOffset_bounds
    (d : Dialect) (shown : Option String) (type : String) (format : Option Format)
    (hg : g.depth ≤ g.limit) :
    g.Bounds .tooDeep 0 (∀ f, format = some f → f.WritableOffset d type)
      (d.layoutOffset shown (d.isNumeric type) (formatPart format)) := by
  match format with
  | none => exact .leaf hg (by simp)
  | some (.text s) => exact refuse_bounds (by simp [Format.WritableOffset])
  | some (.offset n) =>
      cases hnumeric : d.isNumeric type with
      | true =>
          simp only [layoutOffset, formatPart, if_true]
          refine ((writeNumber_bounds hg n).map _).congr rfl ?_
          simp [Format.WritableOffset, hnumeric]
      | false => exact refuse_bounds (by simp [Format.WritableOffset, hnumeric])

/-- After a type that takes sub-messages, an offset and complete sub-messages are written. -/
theorem layoutBranching_bounds
    {p : PlaceholderParts} {type : String} {format : Option Format} {part : SubmessagesPart}
    (hg : g.depth ≤ g.limit) (hparts : p.format = formatPart format)
    (hsubs : p.submessages = some part)
    (htext : g.Bounds .tooDeep depth fit part.text) :
    g.Bounds .tooDeep depth
      (part.complete = true ∧ (∀ f, format = some f → f.WritableOffset d type) ∧ fit)
      (d.layoutBranching p (d.isNumeric type)) := by
  obtain ⟨complete, text⟩ := part
  cases complete with
  | false =>
      simp only [layoutBranching, hsubs]
      exact refuse_bounds (by simp)
  | true =>
      have hoffset := layoutOffset_bounds d p.shownId type format hg
      simp only [layoutBranching, hsubs, hparts]
      exact (hoffset.bind fun _ => htext.andReturn _).congr (Nat.zero_max depth) (by simp)

/-- Such a type is not followed by anything else. -/
theorem layoutBranching_none_bounds
    {p : PlaceholderParts} {isNumeric : Bool} (hsubs : p.submessages = none) (hunfit : ¬ fit) :
    g.Bounds .tooDeep depth fit (d.layoutBranching p isNumeric) := by
  simp only [layoutBranching, hsubs]
  exact refuse_bounds hunfit

theorem writeReference_bounds
    (d : Dialect) (hg : g.depth ≤ g.limit) (owner : Option String) (id : String) :
    g.Bounds .tooDeep 0 (owner = some id) (d.writeReference owner id) := by
  unfold writeReference
  split
  · next howner => exact .leaf hg howner
  · next howner => exact unwritable_bounds howner

mutual

theorem writeNode_bounds
    (d : Dialect) (g : Guard) (hg : g.depth ≤ g.limit) (owner : Option String) (node : Node) :
    g.Bounds .tooDeep node.depth (node.Writable d owner) (d.writeNode g owner node) := by
  match node with
  | .text s => exact .leaf hg trivial
  | .reference id => exact writeReference_bounds d hg owner id
  | .placeholder id none format none =>
      rw [writeNode]
      refine (layoutPlaceholder_untyped_bounds rfl (writeToken_bounds d hg .placeholderId id)
        fun _ => rfl).congr rfl ?_
      simp [Node.Writable, formatPart_eq_absent_iff]
  | .placeholder id none format (some subs) =>
      rw [writeNode]
      refine (layoutPlaceholder_untyped_bounds rfl (writeToken_bounds d hg .placeholderId id)
        ?_).congr rfl ?_
      · rintro ⟨_, hsubs⟩
        cases hsubs
      · simp [Node.Writable]
  | .placeholder id (some type) format none =>
      rw [writeNode]
      refine layoutPlaceholder_bounds rfl (writeToken_bounds d hg .placeholderId id)
        (writeToken_bounds d hg .placeholderType type) ?_ ?_
      · intro hbranching
        have hbranching : d.isBranching type = true := hbranching
        exact layoutBranching_none_bounds rfl (by simp [hbranching])
      · intro hplain
        have hplain : d.isBranching type = false := hplain
        exact (layoutPlain_bounds hg rfl rfl).congr rfl (by simp [hplain])
  | .placeholder id (some type) format (some subs) =>
      have hsubs := writeSubmessages_bounds d g hg (d.ownerOf id type) subs
      rw [writeNode]
      refine layoutPlaceholder_bounds rfl (writeToken_bounds d hg .placeholderId id)
        (writeToken_bounds d hg .placeholderType type) ?_ ?_
      · intro hbranching
        have hbranching : d.isBranching type = true := hbranching
        refine (layoutBranching_bounds hg rfl rfl (hsubs.map _)).congr rfl ?_
        simp [hbranching]
      · intro hplain
        have hplain : d.isBranching type = false := hplain
        exact layoutPlain_subs_bounds rfl (by simp [hplain])
  | .tag name none =>
      rw [writeNode]
      exact layoutTag_empty_bounds (writeToken_bounds d hg .tagName name)
  | .tag name (some []) =>
      rw [writeNode]
      refine (layoutTag_empty_bounds (writeToken_bounds d hg .tagName name)).congr rfl ?_
      simp [Node.Writable, Message.Writable]
  | .tag name (some (child :: rest)) =>
      have hchildren : g.Bounds .tooDeep (1 + Message.depth (child :: rest))
          (Message.Writable d none (child :: rest))
          (g.enterBody >>= fun inner => d.writeNodes inner none (child :: rest)) :=
        Guard.Bounds.enter rfl fun hinner => writeNodes_bounds d g.inner hinner none (child :: rest)
      rw [writeNode]
      exact layoutTag_bounds (writeToken_bounds d hg .tagName name) hchildren

theorem writeNodes_bounds
    (d : Dialect) (g : Guard) (hg : g.depth ≤ g.limit) (owner : Option String) (m : List Node) :
    g.Bounds .tooDeep (Message.depth m) (Message.Writable d owner m)
      (d.writeNodes g owner m) := by
  match m with
  | [] => exact .leaf hg trivial
  | node :: rest =>
      have hnode := writeNode_bounds d g hg owner node
      have hrest := writeNodes_bounds d g hg owner rest
      rw [writeNodes]
      exact hnode.bind fun first => hrest.andReturn _

theorem writeSubmessages_bounds
    (d : Dialect) (g : Guard) (hg : g.depth ≤ g.limit) (owner : Option String)
    (subs : List (String × List Node)) :
    g.Bounds .tooDeep (Submessages.depth subs) (Submessages.Writable d owner subs)
      (d.writeSubmessages g owner subs) := by
  match subs with
  | [] => exact .leaf hg trivial
  | (selector, body) :: rest =>
      have hbody : g.Bounds .tooDeep (1 + Message.depth body)
          (Message.Writable d owner body)
          (g.enterBody >>= fun inner => d.writeNodes inner owner body) :=
        Guard.Bounds.enter rfl fun hinner => writeNodes_bounds d g.inner hinner owner body
      have hfirst := layoutSubmessage_bounds (d := d)
        (writeToken_bounds d hg .selector selector) hbody
      have hrest := writeSubmessages_bounds d g hg owner rest
      rw [writeSubmessages]
      exact (hfirst.bind fun first => hrest.andReturn _).congr rfl and_assoc

end

/-- Writing a message answers by its depth, and is fit for writable messages. -/
theorem serialize_bounds
    (d : Dialect) {limit : Int} (hlimit : 0 ≤ limit) (m : Message) :
    Guard.Bounds { limit := limit } .tooDeep (Message.depth m) (Message.Writable d none m)
      (d.serialize limit m) :=
  writeNodes_bounds d { limit := limit } hlimit none m

/-- A message is writable exactly if it is written within some limit. -/
theorem writable_iff
    (d : Dialect) (m : Message) :
    Message.Writable d none m ↔ ∃ limit text, 0 ≤ limit ∧ d.serialize limit m = .ok text := by
  constructor
  · intro hm
    have hlimit : 0 ≤ (Message.depth m : Int) := Int.natCast_nonneg _
    obtain ⟨text, htext⟩ := (d.serialize_bounds hlimit m).eq_ok hm (by simp)
    exact ⟨Message.depth m, text, hlimit, htext⟩
  · rintro ⟨limit, text, hlimit, htext⟩
    have hbounds := d.serialize_bounds hlimit m
    rw [htext] at hbounds
    exact hbounds.fit_of_ok

end Dialect

end MessageFormat
