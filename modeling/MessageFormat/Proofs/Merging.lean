import MessageFormat.Proofs.Merging.Drafts
import MessageFormat.Proofs.Sorting

/-!
# Merging settings

A setting has two names, and each name belongs to one setting (`Field.ofName?_eq_some_iff`), so
settings given by name stand for changes of a draft, and reading them never fails
(`readSettings_toValue`). The laws of merging (`Dialect.merge_laws`) are laws of the draft that
the changes make.
-/

namespace MessageFormat

/-- One of the two names of a setting. -/
def Field.HasName (field : Field) (name : String) : Prop :=
  name = field.name ∨ name = field.oldName

instance (field : Field) (name : String) : Decidable (field.HasName name) :=
  inferInstanceAs (Decidable (_ ∨ _))

/-- A setting is found by both of its names, and by no other. -/
theorem Field.ofName?_eq_some_iff
    {field : Field} {name : String} :
    Field.ofName? name = some field ↔ field.HasName name := by
  constructor
  · intro h
    have hname := List.find?_some h
    rw [Bool.or_eq_true, beq_iff_eq, beq_iff_eq] at hname
    exact hname.imp Eq.symm Eq.symm
  · intro hname
    cases field with
    | delimiter role => cases role <;> rcases hname with rfl | rfl <;> decide +kernel
    | offsetKeyword | numericTypes | branchingTypes | tagsAllowed =>
        rcases hname with rfl | rfl <;> decide +kernel

/-- Values for settings, by name. -/
abbrev Settings := List (String × Value)

namespace Settings

/-- The entries of a mapping with these settings. -/
def entries (settings : Settings) : List (Value × Value) :=
  settings.map fun (name, v) => (.str name, v)

/-- Settings as a mapping. -/
def toValue (settings : Settings) : Value :=
  .dict settings.entries

/-- The changes that settings stand for. -/
def changes (settings : Settings) : Changes :=
  settings.filterMap fun (name, v) => (Field.ofName? name).map (·, v)

theorem entries_append
    (settings later : Settings) :
    entries (settings ++ later) = settings.entries ++ later.entries :=
  List.map_append

theorem changes_append
    (settings later : Settings) :
    changes (settings ++ later) = settings.changes ++ later.changes :=
  List.filterMap_append

theorem settingEntries_toValue
    (settings : Settings) :
    settingEntries settings.toValue = .ok settings.entries := by
  cases settings <;> rfl

theorem overrideEntries_toValue
    (settings : Settings) :
    overrideEntries settings.toValue = .ok settings.entries := by
  simp [overrideEntries, toValue, entries]

theorem changesOf_entries
    (settings : Settings) :
    changesOf settings.entries = settings.changes := by
  rw [changesOf, entries, changes, List.filterMap_map]
  rfl

/-- The keys that name no setting are texts, so they can be told in order. -/
theorem text_of_mem_ignoredOf
    (settings : Settings) {key : Value} (h : key ∈ ignoredOf settings.entries) :
    ∃ s, key = .str s := by
  obtain ⟨entry, hentry, rfl⟩ := List.mem_map.mp h
  obtain ⟨⟨name, v⟩, -, rfl⟩ := List.mem_map.mp (List.mem_filter.mp hentry).1
  exact ⟨name, rfl⟩

end Settings

/-- Settings are read, whatever their names, as the changes that they stand for. -/
theorem readSettings_toValue
    (settings later : Settings) :
    (readSettings settings.toValue later.toValue).outcome =
      .ok (Settings.changes (settings ++ later)) := by
  obtain ⟨ordered, hsorted, hordered⟩ :=
    Value.sorted_texts fun _ => Settings.text_of_mem_ignoredOf (settings ++ later)
  obtain ⟨text, hjoined⟩ := Value.joined_texts ", " hordered
  simp only [readSettings, settings.settingEntries_toValue, later.overrideEntries_toValue, bind,
    Logged.andThen, Logged.of, mapError_ok, ← Settings.entries_append, Settings.changesOf_entries]
  split
  · simp only [hsorted, Except.bind, hjoined, mapError_ok, Logged.note, pure]
  · simp only [pure]

namespace Settings

/-- Either name of a setting stands for a change of it. -/
theorem changes_renamed
    {field : Field} {name name' : String}
    (hname : field.HasName name) (hname' : field.HasName name')
    (front back : Settings) (v : Value) :
    changes (front ++ (name, v) :: back) = changes (front ++ (name', v) :: back) := by
  have hfield := Field.ofName?_eq_some_iff.mpr hname
  have hfield' := Field.ofName?_eq_some_iff.mpr hname'
  rw [changes_append, changes_append]
  simp [changes, hfield, hfield']

/-- A name of no setting stands for no change. -/
theorem changes_ignored
    {name : String} (hname : ∀ field : Field, ¬ field.HasName name)
    (front back : Settings) (v : Value) :
    changes (front ++ (name, v) :: back) = changes (front ++ back) := by
  have hnone : Field.ofName? name = none := by
    rw [Option.eq_none_iff_forall_ne_some]
    exact fun field hfield => hname field (Field.ofName?_eq_some_iff.mp hfield)
  rw [changes_append, changes_append]
  simp [changes, hnone]

/-- Settings that no name gives twice stand for changes of different settings. -/
theorem changes_pairwise
    {settings : Settings}
    (h : settings.Pairwise fun entry other =>
      ∀ field : Field, field.HasName entry.1 → ¬ field.HasName other.1) :
    settings.changes.Pairwise fun change other => change.1 ≠ other.1 := by
  refine List.Pairwise.filterMap _ ?_ h
  rintro ⟨name, v⟩ ⟨name', v'⟩ hne change hchange change' hchange' heq
  obtain ⟨field, hfield, rfl⟩ := Option.map_eq_some_iff.mp hchange
  obtain ⟨field', hfield', rfl⟩ := Option.map_eq_some_iff.mp hchange'
  obtain rfl : field = field' := heq
  exact hne field (Field.ofName?_eq_some_iff.mp hfield) (Field.ofName?_eq_some_iff.mp hfield')

/-- A setting that is not named is not changed. -/
theorem changes_ne_of_not_named
    {settings : Settings} {field : Field} (h : ∀ entry ∈ settings, ¬ field.HasName entry.1) :
    ∀ change ∈ settings.changes, change.1 ≠ field := by
  rintro change hchange rfl
  obtain ⟨⟨name, v⟩, hentry, hnamed⟩ := List.mem_filterMap.mp hchange
  obtain ⟨field, hfield, rfl⟩ := Option.map_eq_some_iff.mp hnamed
  exact h _ hentry (Field.ofName?_eq_some_iff.mp hfield)

end Settings

namespace Dialect

/-- What a dialect becomes when settings are merged into it, which later ones override. -/
def merged (d : Dialect) (settings later : Settings) : Except MessageFormat.Fault Dialect :=
  (d.merge settings.toValue later.toValue).outcome.map (·.dialect)

/-- Merging settings checks the draft that their changes make. -/
theorem merged_eq
    (d : Dialect) (settings later : Settings) :
    d.merged settings later =
      ((d.toDraft.apply settings.changes).apply later.changes).check.mapError Fault.toFault := by
  simp only [merged, merge, bind, Logged.andThen, Logged.of, readSettings_toValue, change_eq,
    Settings.changes_append, Draft.apply_append]
  cases ((d.toDraft.apply settings.changes).apply later.changes).check with
  | error fault => rfl
  | ok e => rfl

theorem merged_eq_ok_iff
    {d e : Dialect} {settings later : Settings} :
    d.merged settings later = .ok e ↔
      ((d.toDraft.apply settings.changes).apply later.changes).check = .ok e := by
  rw [merged_eq]
  cases ((d.toDraft.apply settings.changes).apply later.changes).check with
  | error fault => simp
  | ok e => simp

/-- What was merged keeps the draft that all changes make. -/
theorem toDraft_of_merged
    {d e : Dialect} {settings later : Settings} (h : d.merged settings later = .ok e) :
    e.toDraft = (d.toDraft.apply (Settings.changes (settings ++ later))).kept := by
  rw [Settings.changes_append, Draft.apply_append]
  exact toDraft_of_check (merged_eq_ok_iff.mp h)

/-- Settings that change a draft alike are merged alike. -/
theorem merged_congr
    {d : Dialect} {settings settings' : Settings}
    (h : d.toDraft.apply settings.changes = d.toDraft.apply settings'.changes) (later : Settings) :
    d.merged settings later = d.merged settings' later := by
  rw [merged_eq, merged_eq, h]

/-- Making a dialect from settings is merging them into the standard dialect. -/
theorem fromSettings_outcome
    (mapping overrides : Value) :
    (fromSettings mapping overrides).outcome =
      (standard.merge mapping overrides).outcome.map (·.dialect) := by
  simp only [fromSettings, merge, bind, Logged.andThen, Logged.of]
  cases (readSettings mapping overrides).outcome with
  | error fault => rfl
  | ok changes =>
      simp only [change_eq]
      cases (standard.toDraft.apply changes).check with
      | error fault => rfl
      | ok e => rfl

/-- How settings are merged into a dialect. -/
structure MergeLaws (d : Dialect) : Prop where
  /-- Settings that are merged one after the other could be merged at once, the later ones
  overriding the others. -/
  twice (settings later : Settings) (once : Dialect) :
    d.merged settings [] = .ok once → once.merged later [] = d.merged settings later
  /-- It does not matter by which of its names a setting is given. -/
  renamed (front back later : Settings) (field : Field) (name name' : String) (v : Value) :
    field.HasName name → field.HasName name' →
      d.merged (front ++ (name, v) :: back) later = d.merged (front ++ (name', v) :: back) later
  /-- It does not matter in which order different settings are given. -/
  reordered (settings settings' later : Settings) :
    settings.Perm settings' →
      settings.Pairwise (fun entry other =>
        ∀ field : Field, field.HasName entry.1 → ¬ field.HasName other.1) →
      d.merged settings later = d.merged settings' later
  /-- It does not matter what is given by a name of no setting. -/
  ignored (front back later : Settings) (name : String) (v : Value) :
    (∀ field : Field, ¬ field.HasName name) →
      d.merged (front ++ (name, v) :: back) later = d.merged (front ++ back) later
  /-- A setting has the value that it was given last, by whichever of its names, in the form in
  which it is kept. -/
  last (settings later front back : Settings) (result : Dialect) (field : Field) (name : String)
      (v : Value) :
    d.merged settings later = .ok result →
      settings ++ later = front ++ (name, v) :: back →
      field.HasName name →
      (∀ entry ∈ back, ¬ field.HasName entry.1) →
      result.toDraft field = field.kept v
  /-- A setting that is not named stays as it was. -/
  kept (settings later : Settings) (result : Dialect) (field : Field) :
    d.merged settings later = .ok result →
      (∀ entry ∈ settings ++ later, ¬ field.HasName entry.1) →
      result.toDraft field = d.toDraft field

/-- Settings are merged by these laws, and making a dialect from settings is merging them into the
standard dialect: with the same result or the same fault, whatever the settings are. -/
theorem merge_laws :
    (∀ mapping overrides : Value,
      (fromSettings mapping overrides).outcome =
        (standard.merge mapping overrides).outcome.map (·.dialect)) ∧
    ∀ d : Dialect, d.MergeLaws := by
  refine ⟨fromSettings_outcome, fun d => ⟨?twice, ?renamed, ?reordered, ?ignored, ?last, ?kept⟩⟩
  case twice =>
    intro settings later once honce
    have hchecked := toDraft_of_check (merged_eq_ok_iff.mp honce)
    have hkept : once.toDraft.kept = (d.toDraft.apply settings.changes).kept := by
      rw [once.kept_toDraft, hchecked]
      rfl
    rw [merged_eq, merged_eq, ← Draft.check_apply hkept]
    rfl
  case renamed =>
    intro front back later field name name' v hname hname'
    exact merged_congr (by rw [Settings.changes_renamed hname hname']) later
  case reordered =>
    intro settings settings' later hperm hdifferent
    exact merged_congr
      (d.toDraft.apply_perm (hperm.filterMap _) (Settings.changes_pairwise hdifferent)) later
  case ignored =>
    intro front back later name v hname
    exact merged_congr (by rw [Settings.changes_ignored hname]) later
  case last =>
    intro settings later front back result field name v hresult hsplit hname hlast
    have hchanges : Settings.changes (settings ++ later) =
        front.changes ++ (field, v) :: back.changes := by
      rw [hsplit, Settings.changes_append]
      simp [Settings.changes, Field.ofName?_eq_some_iff.mpr hname]
    rw [toDraft_of_merged hresult, hchanges, Draft.kept,
      d.toDraft.apply_of_last front.changes v (Settings.changes_ne_of_not_named hlast)]
  case kept =>
    intro settings later result field hresult hnotNamed
    rw [toDraft_of_merged hresult, Draft.kept,
      d.toDraft.apply_of_not_named (Settings.changes_ne_of_not_named hnotNamed)]
    exact congrFun d.kept_toDraft field

/-- The opener by its old name, and a setting that does not exist. -/
def openedByParenthesis : Settings :=
  [("OPEN", .str "("), ("indent", .int 2)]

/-- The opener once more, by its new name. -/
def openedByBracket : Settings :=
  [("open", .str "[")]

/-- The opener is changed twice, in one step or in two, and the closer not at all. -/
theorem merge_laws_openers :
    ∃ once twice : Dialect,
      standard.merged openedByParenthesis [] = .ok once ∧
      standard.merged openedByParenthesis openedByBracket = .ok twice ∧
      once.merged openedByBracket [] = .ok twice ∧
      once.toDraft (.delimiter .opener) = .str "(" ∧
      twice.toDraft (.delimiter .opener) = .str "[" ∧
      twice.toDraft (.delimiter .closer) = .str "\x7d" := by
  obtain ⟨once, honce⟩ : ∃ once, standard.merged openedByParenthesis [] = .ok once :=
    ⟨_, rfl⟩
  obtain ⟨twice, htwice⟩ :
      ∃ twice, standard.merged openedByParenthesis openedByBracket = .ok twice :=
    ⟨_, rfl⟩
  have hlaws : MergeLaws standard := merge_laws.2 standard
  refine ⟨once, twice, honce, htwice, ?_, ?_, ?_, ?_⟩
  · rw [hlaws.twice openedByParenthesis openedByBracket once honce, htwice]
  · exact hlaws.last openedByParenthesis [] [] [("indent", .int 2)] once (.delimiter .opener) "OPEN"
      (.str "(") honce rfl (by decide) (by decide)
  · exact hlaws.last openedByParenthesis openedByBracket openedByParenthesis [] twice
      (.delimiter .opener) "open" (.str "[") htwice rfl (by decide) (by decide)
  · exact hlaws.kept openedByParenthesis openedByBracket twice (.delimiter .closer) htwice
      (by decide)

end Dialect

end MessageFormat
