import MessageFormat.Message.Header

/-!
# The grammar of messages

A body is a sequence of pieces: text, placeholders, back-references and tags. It ends at the end
of the text, before the closer of an enclosing placeholder, or after the closing tag of an
enclosing tag. Placeholders of branching types and tags hold bodies again, so the rules call each
other.

**Termination.** A rule is given a place and answers with a place at which no more is left
(`Parsed`). Every rule that comes back to itself has moved on in between, and between two moves
the rules call each other in a fixed order, so four times the number of characters left plus the
rank of the rule decreases. There is no bound on the number of steps to choose.

**Depth.** Entering a body costs one level. The limit is tested before the body is read.
-/

namespace MessageFormat

/-- What a rule depends on besides the text. -/
structure Context where
  dialect : Dialect
  /-- The number of levels that may be entered. -/
  limit : Int
  /-- The number of levels entered. -/
  depth : Int := 0
  enclosing : Enclosing := .nothing
  /-- Where the text starts over, if reading began at a negative position. -/
  seam : Seam := none

namespace Context

/-- The id of the number that a reference sign stands for in the current body, if it does. -/
def referent (cx : Context) : Option String :=
  match cx.enclosing with
  | .placeholder id type =>
      if cx.dialect.isNumeric type then
        some id
      else
        none
  | _ => none

/-- How text in the current body is quoted. -/
def mode (cx : Context) : Mode :=
  if cx.referent.isSome then
    .numericBody
  else
    .body

/-- Whether no further level may be entered. -/
def isFull (cx : Context) : Bool :=
  cx.limit ≤ cx.depth

/-- The context of a body one level deeper, unless the limit forbids it. -/
def enter? (cx : Context) (enclosing : Enclosing) : Option Context :=
  if cx.isFull then
    none
  else
    some { cx with depth := cx.depth + 1, enclosing := enclosing }

/-- Whether the next character ends the current body. -/
def endsBody (cx : Context) (c : Char) : Bool :=
  c == cx.dialect.closer && cx.enclosing != .nothing

/-- The node that a single character is by itself: a closer that closes nothing, a reference sign
that stands for a number, a tag opener before a blank. -/
def atom? (cx : Context) (c : Char) (next : Option Char) : Option Node :=
  if c = cx.dialect.closer then
    some (.text c.toString)
  else if c = cx.dialect.reference then
    cx.referent.map .reference
  else if cx.dialect.tagsAllowed && c == cx.dialect.tagOpener && next.any isBlank then
    some (.text c.toString)
  else
    none

end Context

/-- The nodes of a body, and whether it ended with the closing tag of the enclosing tag. -/
structure Body where
  nodes : Message
  closed : Bool
deriving DecidableEq, Repr

/-- Puts a node in front of a body. -/
def Body.before (node : Node) (body : Body) : Body :=
  { body with nodes := node.before body.nodes }

/-- One piece of a body. -/
inductive Piece where
  | node (node : Node)
  /-- The closing tag of the enclosing tag, which ends the body. -/
  | closingTag (name : String)
deriving DecidableEq, Repr

/-- What a rule read and the place after it, at which at most `bound` characters are left. -/
abbrev Parsed (α : Type) (bound : Nat) :=
  Except Failure { r : α × Place // r.2.left ≤ bound }

/-- What a rule read, with a larger bound. -/
def Parsed.weaken {α : Type} {m n : Nat} (h : m ≤ n) : Parsed α m → Parsed α n
  | .error failure => .error failure
  | .ok ⟨r, hr⟩ => .ok ⟨r, Nat.le_trans hr h⟩

/-- A result of a rule without the proof that nothing was added to the text. -/
def Parsed.plain {α : Type} {bound : Nat} : Parsed α bound → Except Failure (α × Place)
  | .ok r => .ok r.val
  | .error failure => .error failure

namespace Context

/-- Reads the format and the closer of a placeholder whose type takes no sub-messages. -/
def readFormatted (d : Dialect) (id type : String) (p : Place) : Parsed Node p.left :=
  match hformat : d.readFormat p with
  | .error failure => .error failure
  | .ok (format, q) =>
      match hcloser : d.readCloser q with
      | .error failure => .error failure
      | .ok r =>
          .ok ⟨(.placeholder id (some type) (some (.text format)) none, r),
            ((Dialect.readCloser_follows hcloser).trans
              (Dialect.readFormat_follows hformat)).left_le⟩

mutual

/-- Reads a body. -/
def readBody (cx : Context) (p : Place) : Parsed Body p.left :=
  match hc : p.peek with
  | none => .ok ⟨(⟨[], false⟩, p), Nat.le_refl _⟩
  | some c =>
      if cx.endsBody c then
        .ok ⟨(⟨[], false⟩, p), Nat.le_refl _⟩
      else
        match readPiece cx p c hc with
        | .error failure => .error failure
        | .ok ⟨(.closingTag _, q), hq⟩ => .ok ⟨(⟨[], true⟩, q), hq⟩
        | .ok ⟨(.node node, q), _⟩ =>
            if hlt : q.left < p.left then
              match readBody cx q with
              | .error failure => .error failure
              | .ok ⟨(body, r), hr⟩ =>
                  .ok ⟨(body.before node, r), Nat.le_trans hr (Nat.le_of_lt hlt)⟩
            else
              .error ⟨.noProgress, p⟩
termination_by 4 * p.left + 3

/-- Reads the piece of a body that starts with the character `c`. -/
def readPiece (cx : Context) (p : Place) (c : Char) (_hc : p.peek = some c) :
    Parsed Piece p.left :=
  match cx.atom? c p.advance.peek with
  | some node => .ok ⟨(.node node, p.advance), p.advance_follows.left_le⟩
  | none =>
      if c = cx.dialect.opener then
        match readPlaceholder cx p.advance with
        | .error failure => .error failure
        | .ok ⟨(node, q), hq⟩ => .ok ⟨(.node node, q), Nat.le_trans hq p.advance_follows.left_le⟩
      else if cx.dialect.tagsAllowed && c == cx.dialect.tagOpener then
        readMarkup cx p
      else
        .ok ⟨(.node (.text (p.scan cx.dialect cx.mode).1), (p.scan cx.dialect cx.mode).2),
          (p.scan_follows cx.dialect cx.mode).left_le⟩
termination_by 4 * p.left + 2
decreasing_by
  · have := Place.advance_left_lt _hc
    omega
  · omega

/-- Reads a placeholder after its opener. -/
def readPlaceholder (cx : Context) (p : Place) : Parsed Node p.left :=
  match hhead : cx.dialect.readHead p with
  | .error failure => .error failure
  | .ok (.bare id, q) =>
      .ok ⟨(.placeholder id none none none, q), (Dialect.readHead_follows hhead).left_le⟩
  | .ok (.typed id type, q) =>
      .ok ⟨(.placeholder id (some type) none none, q), (Dialect.readHead_follows hhead).left_le⟩
  | .ok (.formatted id type, q) =>
      match hoffset : cx.dialect.readOffsetClause type q cx.seam with
      | .error failure => .error failure
      | .ok (offset, r) =>
          have hr : r.left ≤ p.left :=
            ((Dialect.readOffsetClause_follows hoffset).trans
              (Dialect.readHead_follows hhead)).left_le
          if cx.dialect.isBranching type then
            match cx.enter? (.placeholder id type) with
            | none => .error ⟨.tooDeep cx.limit, r⟩
            | some inner =>
                match readSubmessages inner r with
                | .error failure => .error failure
                | .ok ⟨(subs, s), hs⟩ =>
                    if subs.isComplete requiredSelector then
                      match hcloser : cx.dialect.readCloser s with
                      | .error failure => .error failure
                      | .ok t =>
                          .ok ⟨(.placeholder id (some type) (offset.map .offset) (some subs), t),
                            Nat.le_trans (Dialect.readCloser_follows hcloser).left_le
                              (Nat.le_trans hs hr)⟩
                    else
                      s.expected .requiredSubmessage
          else
            Parsed.weaken hr (readFormatted cx.dialect id type r)
termination_by 4 * p.left + 1

/-- Reads selectors and their sub-messages up to the closer of the placeholder. -/
def readSubmessages (cx : Context) (p : Place) : Parsed Submessages p.left :=
  if p.peek = none ∨ p.peek = some cx.dialect.closer then
    .ok ⟨([], p), Nat.le_refl _⟩
  else
    match hselector : cx.dialect.readSelector p with
    | .error failure => .error failure
    | .ok (selector, q) =>
        have hq : q.left < p.left := Dialect.readSelector_left_lt hselector
        match readBody cx q with
        | .error failure => .error failure
        | .ok ⟨(body, r), hr⟩ =>
            if r.peek = some cx.dialect.closer then
              have hs : r.advance.skip.left < p.left :=
                Nat.lt_of_le_of_lt
                  (Nat.le_trans (r.advance.skip_follows.trans r.advance_follows).left_le hr) hq
              match readSubmessages cx r.advance.skip with
              | .error failure => .error failure
              | .ok ⟨(subs, t), ht⟩ =>
                  .ok ⟨(subs.before selector body.nodes, t), by
                    dsimp only at hr ht ⊢
                    omega⟩
            else
              r.expected (.char cx.dialect.closer)
termination_by 4 * p.left

/-- Reads markup, of which `p` is the place of the tag opener. -/
def readMarkup (cx : Context) (p : Place) : Parsed Piece p.left :=
  match hhead : cx.dialect.readTagHead cx.enclosing p with
  | .error failure => .error failure
  | .ok (.text, q) => .ok ⟨(.node (.text (p.upTo q cx.seam)), q), Dialect.readTagHead_left_le hhead⟩
  | .ok (.closing name, q) => .ok ⟨(.closingTag name, q), Dialect.readTagHead_left_le hhead⟩
  | .ok (.empty name, q) => .ok ⟨(.node (.tag name none), q), Dialect.readTagHead_left_le hhead⟩
  | .ok (.opening name, q) =>
      have hq : q.left < p.left := Dialect.readTagHead_left_lt hhead
      match cx.enter? (.tag name) with
      | none => .error ⟨.tooDeep cx.limit, q⟩
      | some inner =>
          match readBody inner q with
          | .error failure => .error failure
          | .ok ⟨(body, r), hr⟩ =>
              if body.closed then
                let children := if body.nodes.isEmpty then none else some body.nodes
                .ok ⟨(.node (.tag name children), r), by
                  dsimp only at hr ⊢
                  omega⟩
              else
                r.expected .closingTag
termination_by 4 * p.left + 1

end

end Context

end MessageFormat
