import MessageFormat.Dialect.Profile
import Mathlib.Tactic.ByContra

/-!
# Sessions of settings

A draft is accepted exactly if it is usable (`Draft.isOk_check_iff`), and if a delimiter is at
fault, the first one is reported (`Draft.delimiterFault?_eq_first`,
`Draft.roleFault?_of_first`).

The table of roles that is filled one role after the other holds the roles that were passed
(`Draft.fillRoles_eq`), so a draft has a profile exactly if it is a dialect, and the profile is that
of the dialect (`Draft.toProfile_eq`). A session on profiles therefore runs as the session on
dialects does (`Profile.foldl_after`), and at every moment its settings are usable and its table is
the inverse of its delimiters.
-/

namespace MessageFormat

/-- A text is a single character. -/
theorem eq_toString_iff
    {s : String} {c : Char} :
    s = c.toString ↔ s.toList = [c] := by
  rw [← String.toList_inj]
  simp

/-- A fault is a report on these settings. -/
def Fault.Concerns (fault : Fault) (options : List String) : Prop :=
  ∃ report diagnostic, fault = .reported report ∧ report.kind = .configuration ∧
    report.diagnostic = some diagnostic ∧ diagnostic.options = options

/-- A value is a list of names: it can be iterated, is no text, and holds non-empty texts only. -/
def Value.IsNameList (v : Value) : Prop :=
  (∀ s, v ≠ .str s) ∧
    ∃ items, v.items = .ok items ∧ ∀ item ∈ items, ∃ name, name ≠ "" ∧ item = .str name

namespace Role

/-- Where all roles are cut before a role, the roles before the cut are the earlier ones. -/
theorem earlier_eq
    {passed rest : List Role} {role : Role}
    (h : passed ++ role :: rest = all) :
    role.earlier = passed := by
  have hnodup : (passed ++ role :: rest).Nodup := by
    rw [h]
    decide
  have hpassed : ∀ r ∈ passed, decide (r ≠ role) = true := by
    intro r hr
    have hne := (List.nodup_append.mp hnodup).2.2 r hr role List.mem_cons_self
    exact decide_eq_true hne
  rw [earlier, ← h, List.takeWhile_append_of_pos hpassed, List.takeWhile_cons_of_neg (by simp),
    List.append_nil]

theorem not_mem_earlier
    (role : Role) :
    role ∉ role.earlier := by
  cases role <;> decide

/-- Of two roles, one is checked before the other. -/
theorem earlier_or_earlier
    {first second : Role} (h : first ≠ second) :
    first ∈ second.earlier ∨ second ∈ first.earlier := by
  cases first <;> cases second <;> first | decide | exact absurd rfl h

end Role

namespace Draft

variable {draft : Draft} {role : Role}

/-- What a draft has to be like for it to be accepted. -/
structure IsUsable (draft : Draft) : Prop where
  character : ∀ role, ∃ c : Char, draft (.delimiter role) = .str c.toString
  distinct : ∀ first second,
    draft (.delimiter first) = draft (.delimiter second) → first = second
  keyword : ∃ keyword, keyword ≠ "" ∧ draft .offsetKeyword = .str keyword
  numericTypes : (draft .numericTypes).IsNameList
  branchingTypes : (draft .branchingTypes).IsNameList

/-- A delimiter is at fault if it is not a single character or repeats an earlier one. -/
def AtFault (draft : Draft) (role : Role) : Prop :=
  (∀ c : Char, draft (.delimiter role) ≠ .str c.toString) ∨
    ∃ other ∈ role.earlier, draft (.delimiter other) = draft (.delimiter role)

/-- No earlier delimiter is at fault. -/
def IsFirst (draft : Draft) (role : Role) : Prop :=
  ∀ other ∈ role.earlier, ¬ draft.AtFault other

/-- A fault concerns a delimiter: alone if it is not a single character, and else together with the
only earlier delimiter that it repeats. -/
def Blames (draft : Draft) (role : Role) (fault : Fault) : Prop :=
  ((∀ c : Char, draft (.delimiter role) ≠ .str c.toString) ∧ fault.Concerns [role.label])
    ∨
  ∃ other ∈ role.earlier,
    draft (.delimiter other) = draft (.delimiter role) ∧
      (∀ another ∈ role.earlier,
        draft (.delimiter another) = draft (.delimiter role) → another = other) ∧
      (∃ c : Char, draft (.delimiter role) = .str c.toString) ∧
      fault.Concerns [other.label, role.label]

theorem character?_eq_some_iff
    {c : Char} :
    draft.character? role = some c ↔ draft (.delimiter role) = .str c.toString := by
  unfold character?
  cases hvalue : draft (.delimiter role) with
  | str s =>
      simp only [Value.str.injEq, eq_toString_iff]
      split
      · next d hd => simp [hd]
      · next hne =>
          simp only [reduceCtorEq, false_iff]
          exact hne c
  | null | bool | int | float | bytes | list | tuple | dict | placeholder | reference | tag =>
      simp

theorem character?_eq_none_iff :
    draft.character? role = none ↔ ∀ c : Char, draft (.delimiter role) ≠ .str c.toString := by
  rw [Option.eq_none_iff_forall_ne_some]
  exact forall_congr' fun c => not_congr character?_eq_some_iff

/-- A delimiter that is a single character is another one's character exactly if it is its value. -/
theorem character?_eq_iff
    {other : Role} {c : Char} (h : draft.character? role = some c) :
    draft.character? other = some c ↔ draft (.delimiter other) = draft (.delimiter role) := by
  rw [character?_eq_some_iff, character?_eq_some_iff.mp h]

theorem roleFault?_eq_none_iff :
    draft.roleFault? role = none ↔ ¬ draft.AtFault role := by
  unfold roleFault? AtFault
  rw [← character?_eq_none_iff]
  cases hc : draft.character? role with
  | none => simp
  | some c => simp [← character?_eq_iff hc]

/-- No delimiter is at fault exactly if all are different single characters. -/
theorem delimiterFault?_eq_none_iff :
    draft.delimiterFault? = none
      ↔
    (∀ role, ∃ c : Char, draft (.delimiter role) = .str c.toString) ∧
      ∀ first second, draft (.delimiter first) = draft (.delimiter second) → first = second := by
  rw [delimiterFault?, List.findSome?_eq_none_iff]
  simp only [roleFault?_eq_none_iff]
  constructor
  · intro h
    refine ⟨?_, ?_⟩
    · intro role
      by_contra hnone
      exact h role role.mem_all (Or.inl (not_exists.mp hnone))
    · intro first second heq
      by_contra hne
      rcases Role.earlier_or_earlier hne with hfirst | hsecond
      · exact h second second.mem_all (Or.inr ⟨first, hfirst, heq⟩)
      · exact h first first.mem_all (Or.inr ⟨second, hsecond, heq.symm⟩)
  · rintro ⟨hcharacter, hdistinct⟩ role -
    rintro (hnone | ⟨other, hother, heq⟩)
    · obtain ⟨c, hc⟩ := hcharacter role
      exact hnone c hc
    · obtain rfl := hdistinct other role heq
      exact other.not_mem_earlier hother

/-- If a delimiter is at fault, then the fault is that of the first one. -/
theorem delimiterFault?_eq_first
    (h : draft.AtFault role) :
    ∃ first, draft.AtFault first ∧ draft.IsFirst first ∧
      draft.delimiterFault? = draft.roleFault? first := by
  obtain ⟨fault, hfault⟩ : ∃ fault, draft.delimiterFault? = some fault := by
    rw [← Option.ne_none_iff_exists', delimiterFault?, Ne, List.findSome?_eq_none_iff]
    intro hnone
    exact roleFault?_eq_none_iff.mp (hnone role role.mem_all) h
  obtain ⟨passed, first, rest, hall, hfirst, hpassed⟩ := List.findSome?_eq_some_iff.mp hfault
  refine ⟨first, ?_, ?_, by rw [hfault, hfirst]⟩
  · by_contra hnot
    rw [roleFault?_eq_none_iff.mpr hnot] at hfirst
    cases hfirst
  · intro other hother
    rw [Role.earlier_eq hall.symm] at hother
    exact roleFault?_eq_none_iff.mp (hpassed other hother)

/-- The fault of the first delimiter at fault concerns it: before it, no character is repeated, so
there is only one delimiter that it can repeat. -/
theorem roleFault?_of_first
    (h : draft.AtFault role) (hfirst : draft.IsFirst role) :
    ∃ fault, draft.roleFault? role = some fault ∧ draft.Blames role fault.toFault := by
  cases hc : draft.character? role with
  | none =>
      refine ⟨.notOneCharacter role, by simp [roleFault?, hc], Or.inl ⟨?_, ?_⟩⟩
      · exact character?_eq_none_iff.mp hc
      · exact ⟨_, _, rfl, rfl, rfl, rfl⟩
  | some c =>
      have hunique : ∀ other ∈ role.earlier, ∀ another ∈ role.earlier,
          draft (.delimiter other) = draft (.delimiter another) → another = other := by
        intro other hother another hanother heq
        by_contra hne
        rcases Role.earlier_or_earlier hne with hbefore | hbefore
        · exact hfirst other hother (Or.inr ⟨another, hbefore, heq.symm⟩)
        · exact hfirst another hanother (Or.inr ⟨other, hbefore, heq⟩)
      cases hfind : role.earlier.find? (draft.character? · == some c) with
      | none =>
          have hnone : draft.roleFault? role = none := by
            simp [roleFault?, hc, hfind]
          exact absurd h (roleFault?_eq_none_iff.mp hnone)
      | some other =>
          have hmem : other ∈ role.earlier := List.mem_of_find?_eq_some hfind
          have hsame : draft (.delimiter other) = draft (.delimiter role) :=
            (character?_eq_iff hc).mp (by simpa using List.find?_some hfind)
          refine ⟨.conflict other role, by simp [roleFault?, hc, hfind], Or.inr ?_⟩
          refine ⟨other, hmem, hsame, ?_, ⟨c, character?_eq_some_iff.mp hc⟩, ?_⟩
          · intro another hanother heq
            exact hunique other hmem another hanother (hsame.trans heq.symm)
          · exact ⟨_, _, rfl, rfl, rfl, rfl⟩

theorem isSome_names?_iff
    (items : List Value) :
    (names? items).isSome = true ↔ ∀ item ∈ items, ∃ name, name ≠ "" ∧ item = .str name := by
  induction items with
  | nil => simp [names?]
  | cons item rest ih =>
      cases item with
      | str name =>
          by_cases hname : name = ""
          · simp [names?, hname]
          · simp [names?, hname, ih]
      | null | bool | int | float | bytes | list | tuple | dict | placeholder | reference | tag =>
          simp [names?]

/-- A type list is accepted exactly if it is a list of names. -/
theorem isOk_typeNames_iff
    (draft : Draft) (field : Field) :
    (∃ names, draft.typeNames field = .ok names) ↔ (draft field).IsNameList := by
  unfold typeNames Value.IsNameList
  generalize draft field = v
  split
  · next s => simp
  · next v hv =>
      constructor
      · rintro ⟨names, hnames⟩
        refine ⟨fun s hs => hv s hs, ?_⟩
        split at hnames
        · cases hnames
        · next items hitems =>
            refine ⟨items, hitems, (isSome_names?_iff items).mp ?_⟩
            split at hnames
            · cases hnames
            · next hsome => simp [hsome]
      · rintro ⟨-, items, hitems, hall⟩
        obtain ⟨names, hnames⟩ := Option.isSome_iff_exists.mp ((isSome_names?_iff items).mpr hall)
        exact ⟨names, by simp [hitems, hnames]⟩

/-- A draft is accepted exactly if it is usable. -/
theorem isOk_check_iff
    (draft : Draft) :
    (∃ d, draft.check = .ok d) ↔ draft.IsUsable := by
  constructor
  · rintro ⟨d, h⟩
    unfold check at h
    split at h
    · cases h
    · next hfault =>
        obtain ⟨hcharacter, hdistinct⟩ := delimiterFault?_eq_none_iff.mp hfault
        split at h
        · next keyword hkeyword =>
            split at h
            · cases h
            · next hne =>
                split at h
                · cases h
                · next numeric hnumeric =>
                    split at h
                    · cases h
                    · next branching hbranching =>
                        exact ⟨hcharacter, hdistinct, ⟨keyword, hne, hkeyword⟩,
                          (draft.isOk_typeNames_iff _).mp ⟨numeric, hnumeric⟩,
                          (draft.isOk_typeNames_iff _).mp ⟨branching, hbranching⟩⟩
        · cases h
  · rintro ⟨hcharacter, hdistinct, ⟨keyword, hne, hkeyword⟩, hnumeric, hbranching⟩
    have hfault := delimiterFault?_eq_none_iff.mpr ⟨hcharacter, hdistinct⟩
    obtain ⟨numeric, hnumeric⟩ := (draft.isOk_typeNames_iff _).mpr hnumeric
    obtain ⟨branching, hbranching⟩ := (draft.isOk_typeNames_iff _).mpr hbranching
    unfold check
    split
    · next fault hsome => cases hfault.symm.trans hsome
    · simp [hkeyword, hne, hnumeric, hbranching]

/-- A fault of the delimiters comes before any other. -/
theorem check_of_delimiterFault
    {fault : Dialect.Fault} (h : draft.delimiterFault? = some fault) :
    draft.check = .error fault := by
  unfold check
  split
  · next fault' hfault =>
      cases h.symm.trans hfault
      rfl
  · next hnone => cases h.symm.trans hnone

/-- The table of the roles of a draft that are played by single characters. -/
def rolesAmong (draft : Draft) (roles : List Role) : RoleTable :=
  roles.filterMap fun role => (draft.character? role).map fun c => (c.toString, role)

/-- A character is looked up among the delimiters that were passed. -/
theorem lookup_rolesAmong
    (draft : Draft) (passed : List Role) (c : Char) :
    (draft.rolesAmong passed).lookup c.toString =
      passed.find? (draft.character? · == some c) := by
  induction passed with
  | nil => rfl
  | cons role rest ih =>
      cases hrole : draft.character? role with
      | none =>
          have hskip : draft.rolesAmong (role :: rest) = draft.rolesAmong rest := by
            simp [rolesAmong, hrole]
          rw [hskip, ih, List.find?_cons_of_neg (by simp [hrole])]
      | some d =>
          have hnew : draft.rolesAmong (role :: rest) =
              (d.toString, role) :: draft.rolesAmong rest := by
            simp [rolesAmong, hrole]
          rw [hnew, List.lookup_cons]
          by_cases hd : d = c
          · subst hd
            rw [List.find?_cons_of_pos (by simp [hrole]), beq_self_eq_true]
          · have hne : (c.toString == d.toString) = false := by
              rw [beq_eq_false_iff_ne]
              intro heq
              exact hd (by simpa using (eq_toString_iff.mp heq).symm)
            rw [hne, ih, List.find?_cons_of_neg (by simp [hrole, hd])]

theorem fillRoles_cons
    (draft : Draft) (role : Role) (rest : List Role) (table : RoleTable) :
    draft.fillRoles (role :: rest) table =
      (draft.character? role).elim (.error (.notOneCharacter role)) fun c =>
        (table.lookup c.toString).elim (draft.fillRoles rest (table ++ [(c.toString, role)]))
          fun first => .error (.conflict first role) := by
  rw [fillRoles, character?]
  cases draft (.delimiter role) with
  | str s =>
      cases hs : s.toList with
      | nil => simp [hs]
      | cons c chars =>
          cases chars with
          | nil =>
              obtain rfl := eq_toString_iff.mpr hs
              simp only [hs, List.length_cons, List.length_nil, Option.elim_some]
              cases table.lookup c.toString with
              | none => simp
              | some first => simp
          | cons d chars => simp [hs]
  | null | bool | int | float | bytes | list | tuple | dict | placeholder | reference | tag => rfl

/-- The table takes in the delimiters that are not at fault, up to the first one that is. -/
theorem fillRoles_eq
    (draft : Draft) (passed rest : List Role) (h : passed ++ rest = Role.all) :
    draft.fillRoles rest (draft.rolesAmong passed) =
      (rest.findSome? draft.roleFault?).elim (.ok (draft.rolesAmong Role.all)) .error := by
  induction rest generalizing passed with
  | nil =>
      rw [← h, List.append_nil]
      rfl
  | cons role rest ih =>
      have hnext := ih (passed ++ [role]) (by simpa using h)
      have hearlier := Role.earlier_eq h
      rw [fillRoles_cons, List.findSome?_cons]
      cases hc : draft.character? role with
      | none => simp [roleFault?, hc]
      | some c =>
          have htable : draft.rolesAmong (passed ++ [role]) =
              draft.rolesAmong passed ++ [(c.toString, role)] := by
            simp [rolesAmong, hc]
          rw [htable] at hnext
          have hlookup := draft.lookup_rolesAmong passed c
          cases hfind : passed.find? (draft.character? · == some c) with
          | none =>
              rw [hfind] at hlookup
              simp only [roleFault?, hc, hearlier, hfind, hlookup, hnext, Option.elim_some,
                Option.elim_none, Option.map_none]
          | some first =>
              rw [hfind] at hlookup
              simp only [roleFault?, hc, hearlier, hfind, hlookup, Option.elim_some,
                Option.map_some]

/-- Without a fault among the delimiters, the table holds every role. -/
theorem rolesAmong_all
    (h : draft.delimiterFault? = none) :
    draft.rolesAmong Role.all =
      Role.all.map fun role => (((draft.delimiters h).char role).toString, role) := by
  rw [rolesAmong, ← List.filterMap_eq_map]
  exact congrArg (List.filterMap · Role.all) (funext fun role => by simp [char_delimiters h role])

/-- Checking a draft for a profile is checking it for a dialect, of which it is the profile. -/
theorem toProfile_eq
    (draft : Draft) :
    draft.toProfile = draft.check.map Dialect.profile := by
  have hroles : draft.fillRoles Role.all [] =
      draft.delimiterFault?.elim (.ok (draft.rolesAmong Role.all)) .error :=
    draft.fillRoles_eq [] Role.all rfl
  unfold check
  split
  · next fault hfault =>
      rw [hfault] at hroles
      simp only [toProfile, hroles, Option.elim_some]
      rfl
  · next hfault =>
      rw [hfault, rolesAmong_all hfault] at hroles
      simp only [toProfile, hroles, Option.elim_none]
      cases hkeyword : draft .offsetKeyword with
      | str keyword =>
          by_cases hne : keyword = ""
          · simp only [hne, if_true, dite_true]
            rfl
          · simp only [hne, if_false, dite_false]
            cases draft.typeNames .numericTypes with
            | error fault => rfl
            | ok numeric =>
                cases draft.typeNames .branchingTypes with
                | error fault => rfl
                | ok branching =>
                    refine congrArg (fun settings => Except.ok (Profile.mk settings _)) ?_
                    funext field
                    cases field with
                    | delimiter role =>
                        exact character?_eq_some_iff.mp (char_delimiters hfault role)
                    | offsetKeyword => exact hkeyword
                    | numericTypes => rfl
                    | branchingTypes => rfl
                    | tagsAllowed => rfl
      | null | bool | int | float | bytes | list | tuple | dict | placeholder | reference | tag =>
          rfl

end Draft

namespace Profile

/-- A step on the profile of a dialect makes the profile of what it makes of the dialect. -/
theorem revise_profile
    (d : Dialect) (step : Dialect.Step) :
    (d.profile.revise step).outcome = (d.revise step).outcome.map (·.dialect.profile) := by
  cases step with
  | construct keywords =>
      simp only [revise, Dialect.revise, Dialect.construct, bind, Logged.andThen, Logged.of, pure]
      cases keywordChanges keywords with
      | error m => rfl
      | ok changes =>
          simp only [mapError_ok, Draft.toProfile_eq]
          cases (Dialect.standard.toDraft.apply changes).check with
          | error fault => rfl
          | ok e => rfl
  | fromSettings mapping overrides =>
      simp only [revise, Dialect.revise, Dialect.fromSettings, bind, Logged.andThen, Logged.of,
        pure]
      cases (readSettings mapping overrides).outcome with
      | error fault => rfl
      | ok changes =>
          simp only [Draft.toProfile_eq]
          cases (Dialect.standard.toDraft.apply changes).check with
          | error fault => rfl
          | ok e => rfl
  | merge mapping overrides =>
      simp only [revise, Dialect.revise, Dialect.merge, bind, Logged.andThen, Logged.of, pure]
      cases (readSettings mapping overrides).outcome with
      | error fault => rfl
      | ok changes =>
          simp only [change, Dialect.change]
          by_cases hempty : changes.isEmpty = true
          · simp only [hempty, if_true]
            rfl
          · simp only [hempty, Draft.toProfile_eq, Dialect.profile]
            cases (d.toDraft.apply changes).check with
            | error fault => rfl
            | ok e => rfl

theorem after_profile
    (d : Dialect) (step : Dialect.Step) :
    d.profile.after step = (d.after step).profile := by
  simp only [after, Dialect.after, revise_profile]
  cases (d.revise step).outcome with
  | error fault => rfl
  | ok revision => rfl

/-- A session on profiles runs as the session on dialects does. -/
theorem foldl_after
    (d : Dialect) (steps : List Dialect.Step) :
    steps.foldl after d.profile = (steps.foldl Dialect.after d).profile := by
  induction steps generalizing d with
  | nil => rfl
  | cons step rest ih => rw [List.foldl_cons, List.foldl_cons, after_profile, ih]

end Profile

namespace Dialect

variable {d : Dialect} {role : Role}

theorem isUsable_toDraft
    (d : Dialect) :
    d.toDraft.IsUsable := by
  have hnames (names : List String) (h : "" ∉ names) :
      (Value.tuple (names.map .str)).IsNameList := by
    refine ⟨nofun, _, rfl, ?_⟩
    intro item hitem
    obtain ⟨name, hname, rfl⟩ := List.mem_map.mp hitem
    exact ⟨name, fun hempty => h (hempty ▸ hname), rfl⟩
  constructor
  · intro role
    exact ⟨d.char role, rfl⟩
  · intro first second heq
    apply d.char_inj
    simpa using eq_toString_iff.mp (Value.str.inj heq)
  · exact ⟨d.offsetKeyword, d.keyword_ne_empty, rfl⟩
  · exact hnames d.numericTypes d.numericTypes_ne_empty
  · exact hnames d.branchingTypes d.branchingTypes_ne_empty

theorem roleOf_eq_some_iff
    {c : Char} :
    d.roleOf c = some role ↔ d.char role = c := by
  unfold roleOf
  constructor
  · intro h
    simpa using List.find?_some h
  · intro h
    obtain ⟨other, hother⟩ : ∃ other, Role.all.find? (d.char · == c) = some other := by
      rw [← Option.isSome_iff_exists, List.find?_isSome]
      exact ⟨role, role.mem_all, by simpa using h⟩
    have hchar : d.char other = c := by
      simpa using List.find?_some hother
    rw [hother, d.char_inj (hchar.trans h.symm)]

/-- Among some of the roles, exactly their delimiters are found. -/
theorem lookup_delimiters
    (d : Dialect) (roles : List Role) (s : String) :
    (roles.map fun role => ((d.char role).toString, role)).lookup s = some role
      ↔
    role ∈ roles ∧ s = (d.char role).toString := by
  induction roles with
  | nil => simp
  | cons first rest ih =>
      rw [List.map_cons, List.lookup_cons]
      by_cases hs : s = (d.char first).toString
      · rw [hs, beq_self_eq_true]
        constructor
        · rintro ⟨⟩
          exact ⟨List.mem_cons_self, rfl⟩
        · rintro ⟨-, heq⟩
          have hchar : d.char first = d.char role := by
            simpa using eq_toString_iff.mp heq
          rw [d.char_inj hchar]
      · rw [beq_eq_false_iff_ne.mpr hs, ih, List.mem_cons]
        constructor
        · rintro ⟨hmem, heq⟩
          exact ⟨Or.inr hmem, heq⟩
        · rintro ⟨rfl | hmem, heq⟩
          · exact absurd heq hs
          · exact ⟨hmem, heq⟩

/-- The table of a dialect is the inverse of its delimiters. -/
theorem roleOf_profile_iff
    {s : String} :
    d.profile.roleOf s = some role ↔ s = (d.char role).toString := by
  rw [Profile.roleOf, profile, lookup_delimiters]
  exact and_iff_right role.mem_all

/-- The role of a text is looked up in the table. -/
theorem roleOfValue_eq
    (d : Dialect) (s : String) :
    d.roleOfValue (.str s) = .ok (d.profile.roleOf s) := by
  unfold roleOfValue
  split
  · next t ht =>
      obtain rfl := Value.str.inj ht
      split
      · next c hc =>
          refine congrArg Except.ok (Option.ext fun role => ?_)
          rw [roleOf_eq_some_iff, roleOf_profile_iff, eq_toString_iff, hc]
          simp [eq_comm]
      · next hlong =>
          refine congrArg Except.ok (Eq.symm (Option.eq_none_iff_forall_ne_some.mpr ?_))
          intro role hrole
          exact hlong _ (eq_toString_iff.mp (roleOf_profile_iff.mp hrole))
  · next hv => exact absurd rfl (hv s)

end Dialect

/-- The keyword arguments that give these settings. -/
def keywordsFor (changes : Changes) : Value :=
  .dict (changes.map fun (field, v) => (.str field.name, v))

theorem Field.ofKeyword?_name
    (field : Field) :
    ofKeyword? field.name = some field := by
  cases field with
  | delimiter role => cases role <;> decide
  | offsetKeyword | numericTypes | branchingTypes | tagsAllowed => decide

theorem keywordChanges_keywordsFor
    (changes : Changes) :
    keywordChanges (keywordsFor changes) = .ok changes := by
  have hkeys : overrideEntries (keywordsFor changes) =
      .ok (changes.map fun (field, v) => (.str field.name, v)) := by
    simp [overrideEntries, keywordsFor]
  simp only [keywordChanges, hkeys, bind, Except.bind]
  clear hkeys
  induction changes with
  | nil => rfl
  | cons change rest ih =>
      obtain ⟨field, v⟩ := change
      simp only [List.map_cons, List.mapM_cons, Field.ofKeyword?_name, ih]
      rfl

namespace Dialect

/-- Settings given by keyword are checked as the draft that they make. -/
theorem construct_outcome
    (changes : Changes) :
    (construct (keywordsFor changes)).outcome =
      (standard.toDraft.apply changes).check.mapError Fault.toFault := by
  simp only [construct, keywordChanges_keywordsFor, bind, Logged.andThen, Logged.of, mapError_ok]

/-- Settings are checked exactly, and stay so in every session. Settings given by keyword make a
draft in which each setting has the value that it was given last. They make a dialect exactly if
the draft is usable, with the table that is filled while it is checked, and if a delimiter is at
fault, what is told concerns the first one. Whatever steps a session takes from whatever dialect,
the settings of the current profile are usable, and its table gives a role to a text exactly if
the text is the delimiter of the role. -/
theorem settings_checked
    (changes : Changes) (start : Dialect) (steps : List Step) :
    let draft := standard.toDraft.apply changes
    let outcome := (construct (keywordsFor changes)).outcome
    let current := steps.foldl Profile.after start.profile
    (∀ field, draft field = (changes.last? field).getD (standard.toDraft field)) ∧
      ((∃ d, outcome = .ok d) ↔ draft.IsUsable) ∧
      outcome.map profile = draft.toProfile.mapError Fault.toFault ∧
      ((∀ role, ¬ draft.AtFault role) ∨
        ∃ role, draft.AtFault role ∧ draft.IsFirst role ∧
          ∃ fault, outcome = .error fault ∧ draft.Blames role fault) ∧
      current = (steps.foldl after start).profile ∧
      current.settings.IsUsable ∧
      ∀ (s : String) (role : Role),
        (steps.foldl after start).roleOfValue (.str s) = .ok (current.roleOf s) ∧
          (current.roleOf s = some role ↔ current.settings (.delimiter role) = .str s) := by
  intro draft outcome current
  have houtcome : outcome = draft.check.mapError Fault.toFault := construct_outcome changes
  have hcurrent : current = (steps.foldl after start).profile := Profile.foldl_after start steps
  refine ⟨standard.toDraft.apply_eq changes, ?_, ?_, ?_, hcurrent, ?_, ?_⟩
  · rw [houtcome, ← draft.isOk_check_iff]
    cases draft.check with
    | error fault => simp
    | ok d => simp
  · rw [houtcome, draft.toProfile_eq]
    cases draft.check with
    | error fault => rfl
    | ok d => rfl
  · by_cases hfault : ∃ role, draft.AtFault role
    · right
      obtain ⟨role, hrole⟩ := hfault
      obtain ⟨first, hfirst, hbefore, heq⟩ := Draft.delimiterFault?_eq_first hrole
      obtain ⟨fault, hroleFault, hblames⟩ := Draft.roleFault?_of_first hfirst hbefore
      refine ⟨first, hfirst, hbefore, fault.toFault, ?_, hblames⟩
      rw [houtcome, Draft.check_of_delimiterFault (heq.trans hroleFault), mapError_error]
    · left
      exact not_exists.mp hfault
  · rw [hcurrent]
    exact isUsable_toDraft _
  · intro s role
    rw [hcurrent]
    refine ⟨roleOfValue_eq _ s, ?_⟩
    rw [roleOf_profile_iff, eq_comm]
    exact (Iff.of_eq (Value.str.injEq _ s)).symm

end Dialect

end MessageFormat
