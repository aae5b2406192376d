import MessageFormat.Dialect.Settings

/-!
# Profiles

A profile is what is kept of a draft that was checked: the value of each setting, where the type
lists have become tuples of names, and the table of roles in which a character is looked up. The
table is no setting. It is filled while the delimiters are checked, one role after the other, so it
is made anew whenever settings are checked again.

A session works on one current profile. Each step makes a new one, from the standard settings or
from those of the current profile, and a step that fails leaves the current profile as it was.
-/

namespace MessageFormat

/-- The role of each delimiter, in the order in which they were checked. -/
abbrev RoleTable := List (String × Role)

/-- Settings that were checked. -/
structure Profile where
  settings : Draft
  roles : RoleTable

namespace Draft

/-- Goes on to fill the table of roles with the delimiters of these roles: each has to be a single
character that is not in the table yet. -/
def fillRoles (draft : Draft) : List Role → RoleTable → Except Dialect.Fault RoleTable
  | [], table => .ok table
  | role :: rest, table =>
      match draft (.delimiter role) with
      | .str s =>
          if s.toList.length ≠ 1 then
            .error (.notOneCharacter role)
          else
            match table.lookup s with
            | some first => .error (.conflict first role)
            | none => draft.fillRoles rest (table ++ [(s, role)])
      | _ => .error (.notOneCharacter role)

/-- A draft with the names of its types as tuples, and with a truth value for the tags. -/
def normalized (draft : Draft) (numeric branching : List String) : Draft
  | .numericTypes => .tuple (numeric.map .str)
  | .branchingTypes => .tuple (branching.map .str)
  | .tagsAllowed => .bool (!(draft .tagsAllowed).isVoid)
  | field => draft field

/-- The profile of a draft. -/
def toProfile (draft : Draft) : Except Dialect.Fault Profile :=
  match draft.fillRoles Role.all [] with
  | .error fault => .error fault
  | .ok roles =>
      match draft .offsetKeyword with
      | .str keyword =>
          if keyword = "" then
            .error .badKeyword
          else
            match draft.typeNames .numericTypes with
            | .error fault => .error fault
            | .ok numeric =>
                match draft.typeNames .branchingTypes with
                | .error fault => .error fault
                | .ok branching => .ok ⟨draft.normalized numeric.val branching.val, roles⟩
      | _ => .error .badKeyword

end Draft

namespace Profile

/-- The role that a text plays. -/
def roleOf (p : Profile) (s : String) : Option Role :=
  p.roles.lookup s

/-- A profile after changes. -/
def change (p : Profile) (changes : Changes) : Except Dialect.Fault Profile :=
  if changes.isEmpty then
    .ok p
  else
    (p.settings.apply changes).toProfile

/-- The profile that a step makes out of the current one. -/
def revise (p : Profile) : Dialect.Step → Logged Profile
  | .construct keywords => do
      let changes ← Logged.of ((keywordChanges keywords).mapError .misuse)
      Logged.of ((Dialect.standard.toDraft.apply changes).toProfile.mapError Dialect.Fault.toFault)
  | .fromSettings mapping overrides => do
      let changes ← readSettings mapping overrides
      Logged.of ((Dialect.standard.toDraft.apply changes).toProfile.mapError Dialect.Fault.toFault)
  | .merge mapping overrides => do
      let changes ← readSettings mapping overrides
      Logged.of ((p.change changes).mapError Dialect.Fault.toFault)

/-- The current profile after a step. -/
def after (p : Profile) (step : Dialect.Step) : Profile :=
  match (p.revise step).outcome with
  | .ok q => q
  | .error _ => p

end Profile

/-- The profile of a dialect. -/
def Dialect.profile (d : Dialect) : Profile where
  settings := d.toDraft
  roles := Role.all.map fun role => ((d.char role).toString, role)

end MessageFormat
