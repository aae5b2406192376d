import MessageFormat.Proofs.Sessions

/-!
# Changed drafts

Changes to a draft leave alone what they do not name (`Draft.apply_of_not_named`), and give what
they name the last of its values (`Draft.apply_of_last`). Changes of different settings can be
made in any order (`Draft.apply_perm`).

Checking a draft changes its values: type lists become tuples, and what decides about tags
becomes a truth value. The dialect that is made keeps the draft in this form
(`Dialect.toDraft_of_check`), and the form is all that checking looks at (`Draft.check_kept`).
It therefore makes no difference whether some changes are checked before others are made
(`Draft.check_apply`).
-/

namespace MessageFormat

/-- Where different results stay different, so do outcomes. -/
theorem eq_of_map_eq
    {ε α β : Type} {f : α → β} (hf : ∀ a b, f a = f b → a = b) {x y : Except ε α}
    (h : x.map f = y.map f) :
    x = y := by
  cases x with
  | error e =>
      cases y with
      | error e' => exact congrArg Except.error (Except.error.inj h)
      | ok b => cases h
  | ok a =>
      cases y with
      | error e' => cases h
      | ok b => exact congrArg Except.ok (hf a b (Except.ok.inj h))

namespace Draft

theorem apply_append
    (draft : Draft) (changes later : Changes) :
    draft.apply (changes ++ later) = (draft.apply changes).apply later :=
  List.foldl_append

/-- Changes leave the settings alone that they do not name. -/
theorem apply_of_not_named
    (draft : Draft) {field : Field} {changes : Changes}
    (h : ∀ change ∈ changes, change.1 ≠ field) :
    draft.apply changes field = draft field := by
  rw [apply_eq, Changes.last?_eq_none h, Option.getD_none]

/-- A setting has the value that it was given last. -/
theorem apply_of_last
    (draft : Draft) (front : Changes) {back : Changes} {field : Field} (v : Value)
    (h : ∀ change ∈ back, change.1 ≠ field) :
    draft.apply (front ++ (field, v) :: back) field = v := by
  rw [apply_eq, Changes.last?_append, Changes.last?_cons, Changes.last?_eq_none h, if_pos rfl]
  rfl

theorem set_comm
    (draft : Draft) {field other : Field} (h : field ≠ other) (v w : Value) :
    (draft.set field v).set other w = (draft.set other w).set field v := by
  funext third
  simp only [set]
  by_cases hother : third = other
  · subst hother
    simp [h.symm]
  · simp [hother]

/-- Changes of different settings can be made in any order. -/
theorem apply_perm
    (draft : Draft) {changes changes' : Changes} (hperm : changes.Perm changes')
    (h : changes.Pairwise fun change other => change.1 ≠ other.1) :
    draft.apply changes = draft.apply changes' := by
  induction hperm generalizing draft with
  | nil => rfl
  | cons change _ ih => exact ih (draft.set change.1 change.2) (List.pairwise_cons.mp h).2
  | swap change other rest =>
      have hne : other.1 ≠ change.1 := (List.pairwise_cons.mp h).1 change List.mem_cons_self
      exact congrArg (apply · rest) (draft.set_comm hne other.2 change.2)
  | trans hfirst _ ihfirst ihsecond =>
      exact (ihfirst draft h).trans (ihsecond draft ((hfirst.pairwise_iff Ne.symm).mp h))

end Draft

/-- A type list as a tuple; a text is no type list, and stays. -/
def Value.tupled (v : Value) : Value :=
  match v with
  | .str s => .str s
  | v =>
      match v.items with
      | .ok items => .tuple items
      | .error _ => v

theorem Value.tupled_of_items
    {v : Value} {items : List Value} (hv : ∀ s, v ≠ .str s) (hitems : v.items = .ok items) :
    v.tupled = .tuple items := by
  unfold tupled
  split
  · next s => exact absurd rfl (hv s)
  · simp only [hitems]

/-- The form in which the value of a setting is kept. -/
def Field.kept (field : Field) (v : Value) : Value :=
  match field with
  | .delimiter _ | .offsetKeyword => v
  | .numericTypes | .branchingTypes => v.tupled
  | .tagsAllowed => .bool (!v.isVoid)

namespace Draft

variable {draft other : Draft}

/-- A draft with every value in the form in which it is kept. -/
def kept (draft : Draft) : Draft :=
  fun field => field.kept (draft field)

theorem kept_set
    (draft : Draft) (field : Field) (v : Value) :
    (draft.set field v).kept = draft.kept.set field (field.kept v) := by
  funext other
  by_cases h : other = field
  · subst h
    simp [kept, set]
  · simp [kept, set, h]

/-- What is kept after changes depends on what was kept before only. -/
theorem kept_apply
    (h : draft.kept = other.kept) (changes : Changes) :
    (draft.apply changes).kept = (other.apply changes).kept := by
  induction changes generalizing draft other with
  | nil => exact h
  | cons change rest ih =>
      refine ih ?_
      rw [kept_set, kept_set, h]

theorem typeNames_tupled
    {field : Field} (h : draft field = (other field).tupled) :
    draft.typeNames field = other.typeNames field := by
  unfold typeNames
  rw [h]
  cases other field <;> rfl

/-- The names of a type list are what it holds. -/
theorem names?_eq
    {items : List Value} {names : { names : List String // "" ∉ names }}
    (h : names? items = some names) :
    items = names.val.map .str := by
  induction items generalizing names with
  | nil =>
      obtain rfl := Option.some.inj h
      rfl
  | cons item rest ih =>
      cases item with
      | str name =>
          rw [names?] at h
          split at h
          · cases h
          · obtain ⟨others, hothers, rfl⟩ := Option.map_eq_some_iff.mp h
            rw [List.map_cons, ← ih hothers]
      | null | bool | int | float | bytes | list | tuple | dict | placeholder | reference | tag =>
          cases h

/-- A type list that is accepted is kept as the tuple of its names. -/
theorem tupled_of_typeNames
    {field : Field} {names : { names : List String // "" ∉ names }}
    (h : draft.typeNames field = .ok names) :
    (draft field).tupled = .tuple (names.val.map .str) := by
  unfold typeNames at h
  split at h
  · cases h
  · next v hv =>
      split at h
      · cases h
      · next items hitems =>
          split at h
          · cases h
          · next found hfound =>
              obtain rfl := Except.ok.inj h
              rw [← names?_eq hfound]
              exact Value.tupled_of_items hv hitems

theorem fillRoles_kept
    (draft : Draft) (roles : List Role) (table : RoleTable) :
    draft.kept.fillRoles roles table = draft.fillRoles roles table := by
  induction roles generalizing table with
  | nil => rfl
  | cons role rest ih =>
      simp only [fillRoles, ih]
      rfl

theorem normalized_kept
    (draft : Draft) (numeric branching : List String) :
    draft.kept.normalized numeric branching = draft.normalized numeric branching := by
  funext field
  cases field with
  | delimiter role => rfl
  | offsetKeyword => rfl
  | numericTypes => rfl
  | branchingTypes => rfl
  | tagsAllowed => simp [normalized, kept, Field.kept, Value.isVoid]

theorem toProfile_kept
    (draft : Draft) :
    draft.kept.toProfile = draft.toProfile := by
  have hnumeric : draft.kept.typeNames .numericTypes = draft.typeNames .numericTypes :=
    typeNames_tupled rfl
  have hbranching : draft.kept.typeNames .branchingTypes = draft.typeNames .branchingTypes :=
    typeNames_tupled rfl
  simp only [toProfile, fillRoles_kept, hnumeric, hbranching, normalized_kept]
  rfl

/-- The settings of a profile are those of the draft, in the form in which they are kept. -/
theorem settings_of_toProfile
    {p : Profile} (h : draft.toProfile = .ok p) :
    p.settings = draft.kept := by
  unfold toProfile at h
  split at h
  · cases h
  · split at h
    · split at h
      · cases h
      · split at h
        · cases h
        · next numeric hnumeric =>
            split at h
            · cases h
            · next branching hbranching =>
                obtain rfl := Except.ok.inj h
                funext field
                cases field with
                | delimiter role => rfl
                | offsetKeyword => rfl
                | numericTypes => exact (tupled_of_typeNames hnumeric).symm
                | branchingTypes => exact (tupled_of_typeNames hbranching).symm
                | tagsAllowed => rfl
    · cases h

end Draft

namespace Dialect

/-- Dialects with the same settings are the same. -/
theorem toDraft_inj
    {d e : Dialect} (h : d.toDraft = e.toDraft) :
    d = e := by
  have hchar (role : Role) : d.char role = e.char role := by
    have hvalue := congrFun h (.delimiter role)
    simpa using eq_toString_iff.mp (Value.str.inj hvalue)
  have hnames {ns ms : List String} (hmap : Value.tuple (ns.map .str) = .tuple (ms.map .str)) :
      ns = ms :=
    (List.map_inj_right fun _ _ => Value.str.inj).mp (Value.tuple.inj hmap)
  have hdelimiters : d.toDelimiters = e.toDelimiters := by
    rw [Delimiters.mk.injEq]
    exact ⟨hchar .opener, hchar .closer, hchar .tagOpener, hchar .tagCloser, hchar .tagSlash,
      hchar .separator, hchar .reference, hchar .quote⟩
  have hkeyword := Value.str.inj (congrFun h .offsetKeyword)
  have hnumeric := hnames (congrFun h .numericTypes)
  have hbranching := hnames (congrFun h .branchingTypes)
  have htags := Value.bool.inj (congrFun h .tagsAllowed)
  cases d
  cases e
  simp only at hdelimiters hkeyword hnumeric hbranching htags
  subst hdelimiters hkeyword hnumeric hbranching htags
  rfl

end Dialect

namespace Draft

/-- Checking looks at the form only in which values are kept. -/
theorem check_kept
    (draft : Draft) :
    draft.kept.check = draft.check := by
  have hprofiles : draft.kept.check.map Dialect.profile = draft.check.map Dialect.profile := by
    rw [← toProfile_eq, ← toProfile_eq, toProfile_kept]
  refine eq_of_map_eq ?_ hprofiles
  intro d e hprofile
  exact Dialect.toDraft_inj (congrArg Profile.settings hprofile)

/-- Drafts of which the same is kept are checked alike after changes. -/
theorem check_apply
    {draft other : Draft} (h : draft.kept = other.kept) (changes : Changes) :
    (draft.apply changes).check = (other.apply changes).check := by
  rw [← check_kept, kept_apply h, check_kept]

end Draft

namespace Dialect

/-- A dialect keeps the draft from which it was made. -/
theorem toDraft_of_check
    {draft : Draft} {d : Dialect} (h : draft.check = .ok d) :
    d.toDraft = draft.kept := by
  have hprofile := draft.toProfile_eq
  rw [h] at hprofile
  exact Draft.settings_of_toProfile hprofile

theorem kept_toDraft
    (d : Dialect) :
    d.toDraft.kept = d.toDraft := by
  funext field
  cases field with
  | delimiter role => rfl
  | offsetKeyword => rfl
  | numericTypes => rfl
  | branchingTypes => rfl
  | tagsAllowed => simp [Draft.kept, Field.kept, toDraft, Value.isVoid]

/-- The settings of a dialect make that dialect again. -/
theorem check_toDraft
    (d : Dialect) :
    d.toDraft.check = .ok d := by
  obtain ⟨e, he⟩ := d.toDraft.isOk_check_iff.mpr d.isUsable_toDraft
  rw [he]
  exact congrArg Except.ok (toDraft_inj ((toDraft_of_check he).trans d.kept_toDraft))

/-- A dialect that is not changed is checked again without harm. -/
theorem change_eq
    (d : Dialect) (changes : Changes) :
    d.change changes = (d.toDraft.apply changes).check := by
  cases changes with
  | nil => exact d.check_toDraft.symm
  | cons change rest => rfl

end Dialect

end MessageFormat
