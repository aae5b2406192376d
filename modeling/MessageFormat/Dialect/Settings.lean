import MessageFormat.Logged
import MessageFormat.Value.Order

/-!
# Settings

Settings are given as mappings from names to values, by the new or the old name of a setting, and
a second mapping overrides the first. Names of no setting are ignored with a note. Settings change
either the standard dialect or a dialect that is there already; in each case the result is checked
as a whole.
-/

namespace MessageFormat

/-- Values for some settings, a later one for a setting overriding an earlier one. -/
abbrev Changes := List (Field × Value)

/-- The entries of a mapping, of which there are none in a value that counts as false. -/
def settingEntries (mapping : Value) : Except Misuse (List (Value × Value)) :=
  if mapping.isVoid then
    .ok []
  else
    match mapping with
    | .dict entries => .ok entries
    | v => .error (.notMapping v.typeName)

/-- The setting that the key of an entry names. -/
def settingOf? : Value → Option Field
  | .str name => Field.ofName? name
  | _ => none

/-- The entries that name a setting. -/
def changesOf (entries : List (Value × Value)) : Changes :=
  entries.filterMap fun (key, v) => (settingOf? key).map (·, v)

/-- The keys that name no setting. -/
def ignoredOf (entries : List (Value × Value)) : List Value :=
  (entries.filter fun (key, _) => (settingOf? key).isNone).map (·.1)

/-- Overriding settings, whose keys have to be strings. -/
def overrideEntries (overrides : Value) : Except Misuse (List (Value × Value)) :=
  match overrides with
  | .dict entries =>
      if entries.all fun (key, _) => key matches .str _ then
        .ok entries
      else
        .error .keywordNotText
  | v => settingEntries v

/-- The changes that a mapping and the settings overriding it stand for. -/
def readSettings (mapping overrides : Value) : Logged Changes := do
  let overriding ← Logged.of ((overrideEntries overrides).mapError .misuse)
  let entries ← Logged.of ((settingEntries mapping).mapError .misuse)
  let ignored := ignoredOf (entries ++ overriding)
  if !ignored.isEmpty then
    let names ← Logged.of ((do Value.joined ", " (← Value.sorted ignored)).mapError .misuse)
    Logged.note (.settingsIgnored names)
  return changesOf (entries ++ overriding)

/-- A draft after changes. -/
def Draft.apply (draft : Draft) (changes : Changes) : Draft :=
  changes.foldl (fun draft (field, v) => draft.set field v) draft

/-- The value that changes give a setting, which is the last one, if they name the setting. -/
def Changes.last? (changes : Changes) (field : Field) : Option Value :=
  changes.reverse.lookup field

namespace Changes

variable {changes : Changes} {field : Field}

theorem last?_append
    (changes later : Changes) (field : Field) :
    (changes ++ later : Changes).last? field = (later.last? field).or (changes.last? field) := by
  rw [last?, List.reverse_append, List.lookup_append]
  rfl

theorem last?_eq_none
    (h : ∀ change ∈ changes, change.1 ≠ field) :
    changes.last? field = none := by
  rw [last?, List.lookup_eq_none_iff]
  intro change hchange
  exact bne_iff_ne.mpr (h change (List.mem_reverse.mp hchange)).symm

theorem last?_cons
    (change : Field × Value) (rest : Changes) (field : Field) :
    last? (change :: rest) field =
      (last? rest field).or (if field = change.1 then some change.2 else none) := by
  refine (last?_append [change] rest field).trans (congrArg (Option.or _) ?_)
  obtain ⟨named, v⟩ := change
  by_cases hfield : field = named
  · simp [last?, hfield]
  · rw [if_neg hfield]
    exact last?_eq_none (by simpa using Ne.symm hfield)

end Changes

/-- Changes give each setting the last of its values, and leave it as it was if they do not name
it. -/
theorem Draft.apply_eq
    (draft : Draft) (changes : Changes) (field : Field) :
    draft.apply changes field = (changes.last? field).getD (draft field) := by
  induction changes generalizing draft with
  | nil => rfl
  | cons change rest ih =>
      have hrest : draft.apply (change :: rest) field =
          (Changes.last? rest field).getD (draft.set change.1 change.2 field) :=
        ih (draft.set change.1 change.2)
      rw [hrest, Changes.last?_cons, set]
      cases Changes.last? rest field with
      | some v => rfl
      | none => split <;> rfl

/-- A dialect after changes. -/
def Dialect.change (d : Dialect) (changes : Changes) : Except Dialect.Fault Dialect :=
  if changes.isEmpty then
    .ok d
  else
    (d.toDraft.apply changes).check

/-- The changes that keyword arguments stand for, which have to be named as the settings are. -/
def keywordChanges (keywords : Value) : Except Misuse Changes := do
  let entries ← overrideEntries keywords
  entries.mapM fun (key, v) =>
    match key with
    | .str name =>
        match Field.ofKeyword? name with
        | some field => .ok (field, v)
        | none =>
            if name = "self" then
              .error (.repeatedArgument name)
            else
              .error (.unknownKeyword name)
    | _ => .error .keywordNotText

namespace Dialect

/-- The standard dialect with some settings changed by keyword. -/
def construct (keywords : Value) : Logged Dialect := do
  let changes ← Logged.of ((keywordChanges keywords).mapError .misuse)
  Logged.of ((standard.toDraft.apply changes).check.mapError Fault.toFault)

/-- The standard dialect with the settings of a mapping, overridden by others. -/
def fromSettings (mapping overrides : Value) : Logged Dialect := do
  let changes ← readSettings mapping overrides
  Logged.of ((standard.toDraft.apply changes).check.mapError Fault.toFault)

/-- A dialect after a revision. -/
structure Revision where
  dialect : Dialect
  /-- No setting was named, so the dialect was not touched. -/
  untouched : Bool

/-- A dialect with the settings of a mapping, overridden by others. -/
def merge (d : Dialect) (mapping overrides : Value) : Logged Revision := do
  let changes ← readSettings mapping overrides
  let dialect ← Logged.of ((d.change changes).mapError Fault.toFault)
  return ⟨dialect, changes.isEmpty⟩

/-- The role that a value plays. -/
def roleOfValue (d : Dialect) (v : Value) : Except Misuse (Option Role) :=
  match v with
  | .str s =>
      match s.toList with
      | [c] => .ok (d.roleOf c)
      | _ => .ok none
  | v =>
      match v.unhashable? with
      | some type => .error (.notHashable type)
      | none => .ok none

/-- Whether a value is the name of a numeric type. -/
def isNumericValue (d : Dialect) : Value → Bool
  | .str type => d.isNumeric type
  | _ => false

/-- Whether a value is the name of a branching type. -/
def isBranchingValue (d : Dialect) : Value → Bool
  | .str type => d.isBranching type
  | _ => false

/-- One step of a session in which a dialect is revised. -/
inductive Step where
  | construct (keywords : Value)
  | fromSettings (mapping overrides : Value)
  | merge (mapping overrides : Value)

/-- The dialect that a step makes out of the current one. -/
def revise (d : Dialect) : Step → Logged Revision
  | .construct keywords => do return ⟨← construct keywords, false⟩
  | .fromSettings mapping overrides => do return ⟨← fromSettings mapping overrides, false⟩
  | .merge mapping overrides => d.merge mapping overrides

/-- The current dialect after a step: a step that fails leaves it as it was. -/
def after (d : Dialect) (step : Step) : Dialect :=
  match (d.revise step).outcome with
  | .ok revision => revision.dialect
  | .error _ => d

end Dialect

end MessageFormat
