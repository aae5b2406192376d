import MessageFormat.Dialect.Draft
import MessageFormat.Proofs.Disabled.Writing

/-!
# What is switched off is never looked at

Where tags are not allowed it does not matter which characters would spell them, and where no type
is numeric it matters neither which character would refer to a number nor which keyword would start
an offset (`Dialect.interchangeable_of_disabled`). Two dialects that differ in nothing else read
every input alike, errors included, and write every input alike.

The two dialects are compared by their settings. Those of both are usable, since they are
dialects; so a character that spells nothing in one of them may well be a delimiter that is
switched off there.
-/

namespace MessageFormat

namespace Dialect

/-- No setting besides the given ones tells two dialects apart. -/
def DiffersOnlyIn (fields : List Field) (d d' : Dialect) : Prop :=
  ∀ field ∉ fields, d.toDraft field = d'.toDraft field

/-- The settings that spell a tag. -/
def tagFields : List Field :=
  [.delimiter .tagOpener, .delimiter .tagCloser, .delimiter .tagSlash]

/-- The settings that spell what is said about a number. -/
def numberFields : List Field :=
  [.delimiter .reference, .offsetKeyword]

/-- Nothing that is read, and nothing that is written, tells two dialects apart. -/
structure Interchangeable (d d' : Dialect) : Prop where
  reading : ∀ maxSize depthLimit v,
    (Reader.mk d maxSize depthLimit).readValue v = (Reader.mk d' maxSize depthLimit).readValue v
  writing : ∀ frames v, d.serializeOnStack frames v = d'.serializeOnStack frames v

theorem Agrees.interchangeable
    {d d' : Dialect} (h : d.Agrees d') :
    d.Interchangeable d' where
  reading maxSize depthLimit v :=
    (Reader.readValue_speaking (r := ⟨d, maxSize, depthLimit⟩) h v).symm
  writing frames v := (h.serializeOnStack_eq frames v).symm

section

variable {d d' : Dialect} {fields : List Field} (h : d.DiffersOnlyIn fields d')
include h

theorem DiffersOnlyIn.char_eq
    (role : Role) (hrole : .delimiter role ∉ fields) :
    d.char role = d'.char role := by
  have hvalue : Value.str (d.char role).toString = .str (d'.char role).toString := h _ hrole
  have hlist := congrArg String.toList (Value.str.inj hvalue)
  simpa using hlist

theorem DiffersOnlyIn.offsetKeyword_eq
    (hfield : .offsetKeyword ∉ fields) :
    d.offsetKeyword = d'.offsetKeyword :=
  Value.str.inj (h _ hfield)

theorem DiffersOnlyIn.numericTypes_eq
    (hfield : .numericTypes ∉ fields) :
    d.numericTypes = d'.numericTypes :=
  (List.map_inj_right fun _ _ => Value.str.inj).mp (Value.tuple.inj (h _ hfield))

theorem DiffersOnlyIn.branchingTypes_eq
    (hfield : .branchingTypes ∉ fields) :
    d.branchingTypes = d'.branchingTypes :=
  (List.map_inj_right fun _ _ => Value.str.inj).mp (Value.tuple.inj (h _ hfield))

theorem DiffersOnlyIn.tagsAllowed_eq
    (hfield : .tagsAllowed ∉ fields) :
    d.tagsAllowed = d'.tagsAllowed :=
  Value.bool.inj (h _ hfield)

end

/-- Without tags, the characters that would spell them are not looked at. -/
theorem DiffersOnlyIn.agrees_of_tags
    {d d' : Dialect} (h : d.DiffersOnlyIn tagFields d') (htags : d.tagsAllowed = false) :
    d.Agrees d' where
  opener := h.char_eq .opener (by decide)
  closer := h.char_eq .closer (by decide)
  separator := h.char_eq .separator (by decide)
  quote := h.char_eq .quote (by decide)
  numericTypes := h.numericTypes_eq (by decide)
  branchingTypes := h.branchingTypes_eq (by decide)
  tagsAllowed := h.tagsAllowed_eq (by decide)
  tags hallowed := absurd hallowed (by simp [htags])
  numbers _ := ⟨h.char_eq .reference (by decide), h.offsetKeyword_eq (by decide)⟩

/-- Without numeric types, the reference and the keyword of an offset are not looked at. -/
theorem DiffersOnlyIn.agrees_of_numbers
    {d d' : Dialect} (h : d.DiffersOnlyIn numberFields d') (hnumeric : d.numericTypes = []) :
    d.Agrees d' where
  opener := h.char_eq .opener (by decide)
  closer := h.char_eq .closer (by decide)
  separator := h.char_eq .separator (by decide)
  quote := h.char_eq .quote (by decide)
  numericTypes := h.numericTypes_eq (by decide)
  branchingTypes := h.branchingTypes_eq (by decide)
  tagsAllowed := h.tagsAllowed_eq (by decide)
  tags _ :=
    ⟨h.char_eq .tagOpener (by decide), h.char_eq .tagCloser (by decide),
      h.char_eq .tagSlash (by decide)⟩
  numbers hsome := absurd hnumeric hsome

/-- Dialects that differ only in what spells a tag are interchangeable where tags are not allowed,
and dialects that differ only in what is said about a number where no type is numeric. -/
theorem interchangeable_of_disabled
    (d d' : Dialect) :
    (d.DiffersOnlyIn tagFields d' → d.tagsAllowed = false → d.Interchangeable d') ∧
      (d.DiffersOnlyIn numberFields d' → d.numericTypes = [] → d.Interchangeable d') :=
  ⟨fun hdiffers htags => (hdiffers.agrees_of_tags htags).interchangeable,
    fun hdiffers hnumeric => (hdiffers.agrees_of_numbers hnumeric).interchangeable⟩

/-- The standard dialect without tags and without numeric types. -/
def modest : Dialect :=
  { standard with
    tagsAllowed := false
    numericTypes := []
    distinct := by decide
    numericTypes_ne_empty := by decide }

/-- Modest settings that would spell tags in another way. -/
def modestBrackets : Dialect :=
  { modest with
    tagOpener := '['
    tagCloser := ']'
    tagSlash := '!'
    distinct := by decide }

/-- Modest settings that would refer to a number by what could open a tag elsewhere. -/
def modestNumbers : Dialect :=
  { modest with
    reference := '['
    offsetKeyword := "from"
    distinct := by decide
    keyword_ne_empty := by decide }

/-- Without tags and numeric types, both ways to spell them are as good as the standard ones. -/
theorem interchangeable_of_disabled_modest :
    modest.DiffersOnlyIn tagFields modestBrackets ∧
      modest.DiffersOnlyIn numberFields modestNumbers ∧
      modest.Interchangeable modestBrackets ∧ modest.Interchangeable modestNumbers := by
  have hbrackets : modest.DiffersOnlyIn tagFields modestBrackets := by
    intro field hfield
    cases field with
    | delimiter role => cases role <;> first | rfl | exact absurd hfield (by decide)
    | offsetKeyword | numericTypes | branchingTypes | tagsAllowed => rfl
  have hnumbers : modest.DiffersOnlyIn numberFields modestNumbers := by
    intro field hfield
    cases field with
    | delimiter role => cases role <;> first | rfl | exact absurd hfield (by decide)
    | offsetKeyword => exact absurd hfield (by decide)
    | numericTypes | branchingTypes | tagsAllowed => rfl
  exact ⟨hbrackets, hnumbers,
    (interchangeable_of_disabled modest modestBrackets).1 hbrackets rfl,
    (interchangeable_of_disabled modest modestNumbers).2 hnumbers rfl⟩

end Dialect

end MessageFormat
