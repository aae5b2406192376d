import MessageFormat.Value.Equality
import Mathlib.Algebra.Order.Ring.Int

/-!
# Equality of values is transitive

Values that are equal need not be the same: a number is equal to others that are written in another
way, and dictionaries are equal in every order of their entries. "Not a number" is not even equal to
itself. What holds of all values is that equality is transitive (`Value.same_trans`), which is what
sets of values rest on.
-/

namespace MessageFormat

namespace Dyadic

/-- Two numbers are compared at any exponent that is small enough for both. -/
theorem same_iff_of_le
    {a b : Dyadic} {low : Int} (ha : low ≤ a.exponent) (hb : low ≤ b.exponent) :
    a.same b = true ↔
      a.mantissa * 2 ^ (a.exponent - low).toNat = b.mantissa * 2 ^ (b.exponent - low).toNat := by
  have hscale : ∀ exponent, min a.exponent b.exponent ≤ exponent →
      (exponent - low).toNat =
        (exponent - min a.exponent b.exponent).toNat + (min a.exponent b.exponent - low).toNat := by
    intro exponent hexponent
    omega
  have hpositive : (2 : Int) ^ (min a.exponent b.exponent - low).toNat ≠ 0 :=
    pow_ne_zero _ (by decide)
  rw [hscale a.exponent (min_le_left _ _), hscale b.exponent (min_le_right _ _), pow_add, pow_add,
    ← mul_assoc, ← mul_assoc, mul_left_inj' hpositive]
  simp [same]

theorem same_trans
    {a b c : Dyadic} (h : a.same b = true) (h' : b.same c = true) :
    a.same c = true := by
  have ha : min a.exponent (min b.exponent c.exponent) ≤ a.exponent := by omega
  have hb : min a.exponent (min b.exponent c.exponent) ≤ b.exponent := by omega
  have hc : min a.exponent (min b.exponent c.exponent) ≤ c.exponent := by omega
  rw [same_iff_of_le ha hb] at h
  rw [same_iff_of_le hb hc] at h'
  rw [same_iff_of_le ha hc]
  exact h.trans h'

end Dyadic

theorem Quantity.same_trans
    {a b c : Quantity} (h : a.same b = true) (h' : b.same c = true) :
    a.same c = true := by
  match a, b, c, h, h' with
  | .finite a, .finite b, .finite c, h, h' => exact Dyadic.same_trans h h'
  | .infinite p, .infinite q, .infinite r, h, h' =>
      simp only [same, beq_iff_eq] at h h' ⊢
      exact h.trans h'

namespace Value

attribute [local simp] same sameItems entriesIn

theorem entriesIn_iff
    {xs ys : List (Value × Value)} :
    entriesIn xs ys = true ↔
      ∀ x ∈ xs, ∃ y ∈ ys, same x.1 y.1 = true ∧ same x.2 y.2 = true := by
  induction xs with
  | nil => simp
  | cons x xs ih =>
      obtain ⟨key, v⟩ := x
      simp [ih]

/-- What is equal to a list is a list of equal items. -/
theorem same_list_iff
    {xs : List Value} {w : Value} :
    same (.list xs) w = true ↔ ∃ ys, w = .list ys ∧ sameItems xs ys = true := by
  cases w <;> simp

theorem same_tuple_iff
    {xs : List Value} {w : Value} :
    same (.tuple xs) w = true ↔ ∃ ys, w = .tuple ys ∧ sameItems xs ys = true := by
  cases w <;> simp

/-- What is equal to a dictionary is a dictionary with as many entries that holds all of its. -/
theorem same_dict_iff
    {xs : List (Value × Value)} {w : Value} :
    same (.dict xs) w = true ↔
      ∃ ys, w = .dict ys ∧ xs.length = ys.length ∧ entriesIn xs ys = true := by
  cases w <;> simp

theorem same_reference_iff
    {id w : Value} :
    same (.reference id) w = true ↔ ∃ id', w = .reference id' ∧ same id id' = true := by
  cases w <;> simp

theorem same_tag_iff
    {name children w : Value} :
    same (.tag name children) w = true ↔
      ∃ name' children', w = .tag name' children' ∧ same name name' = true ∧
        same children children' = true := by
  cases w <;> simp

theorem same_placeholder_iff
    {id type format w : Value} :
    same (.placeholder id type format none) w = true ↔
      ∃ id' type' format', w = .placeholder id' type' format' none ∧
        same id id' = true ∧ same type type' = true ∧ same format format' = true := by
  match w with
  | .placeholder id' type' format' none => simp [and_assoc]
  | .placeholder id' type' format' (some ys) => simp
  | .null | .bool _ | .int _ | .float _ | .str _ | .bytes _ | .list _ | .tuple _ | .dict _ |
    .reference _ | .tag _ _ => simp

theorem same_choice_iff
    {id type format w : Value} {xs : List (Value × Value)} :
    same (.placeholder id type format (some xs)) w = true ↔
      ∃ id' type' format' ys, w = .placeholder id' type' format' (some ys) ∧
        same id id' = true ∧ same type type' = true ∧ same format format' = true ∧
        xs.length = ys.length ∧ entriesIn xs ys = true := by
  match w with
  | .placeholder id' type' format' none => simp
  | .placeholder id' type' format' (some ys) => simp [and_assoc]
  | .null | .bool _ | .int _ | .float _ | .str _ | .bytes _ | .list _ | .tuple _ | .dict _ |
    .reference _ | .tag _ _ => simp

/-- Values without parts are equal if they are the same value or the same number. -/
theorem eq_or_number_of_sameAtom
    {v w : Value} (h : sameAtom v w = true) :
    v = w ∨ ∃ a b, v.number? = some a ∧ w.number? = some b ∧ a.same b = true := by
  unfold sameAtom at h
  split at h
  · exact Or.inl rfl
  · exact Or.inl (congrArg Value.str (eq_of_beq h))
  · exact Or.inl (congrArg Value.bytes (eq_of_beq h))
  · split at h
    · next a b hv hw => exact Or.inr ⟨a, b, hv, hw, h⟩
    · cases h

theorem sameAtom_of_number
    {v w : Value} {a b : Quantity} (hv : v.number? = some a) (hw : w.number? = some b)
    (h : a.same b = true) :
    sameAtom v w = true := by
  unfold sameAtom
  split
  · cases hv
  · cases hv
  · cases hv
  · simp [hv, hw, h]

theorem same_of_number
    {v : Value} {a : Quantity} (hv : v.number? = some a) (w : Value) :
    same v w = sameAtom v w := by
  cases v with
  | bool p => simp
  | int n => simp
  | float text => simp
  | _ => cases hv

theorem same_trans_of_atom
    {v w x : Value} (hv : ∀ w, same v w = sameAtom v w)
    (h : same v w = true) (h' : same w x = true) :
    same v x = true := by
  rw [hv] at h
  rcases eq_or_number_of_sameAtom h with rfl | ⟨a, b, ha, hb, hab⟩
  · exact h'
  · rw [same_of_number hb] at h'
    rw [hv]
    rcases eq_or_number_of_sameAtom h' with rfl | ⟨b', c, hb', hc, hbc⟩
    · exact h
    · rw [hb] at hb'
      cases hb'
      exact sameAtom_of_number ha hc (Quantity.same_trans hab hbc)

mutual

theorem same_trans
    {v w x : Value} (h : same v w = true) (h' : same w x = true) :
    same v x = true := by
  match v with
  | .list xs =>
      obtain ⟨ys, rfl, hxs⟩ := same_list_iff.mp h
      obtain ⟨zs, rfl, hys⟩ := same_list_iff.mp h'
      exact same_list_iff.mpr ⟨zs, rfl, sameItems_trans hxs hys⟩
  | .tuple xs =>
      obtain ⟨ys, rfl, hxs⟩ := same_tuple_iff.mp h
      obtain ⟨zs, rfl, hys⟩ := same_tuple_iff.mp h'
      exact same_tuple_iff.mpr ⟨zs, rfl, sameItems_trans hxs hys⟩
  | .dict xs =>
      obtain ⟨ys, rfl, hlength, hxs⟩ := same_dict_iff.mp h
      obtain ⟨zs, rfl, hlength', hys⟩ := same_dict_iff.mp h'
      exact same_dict_iff.mpr ⟨zs, rfl, hlength.trans hlength', entriesIn_trans hxs hys⟩
  | .placeholder id type format none =>
      obtain ⟨_, _, _, rfl, hid, htype, hformat⟩ := same_placeholder_iff.mp h
      obtain ⟨_, _, _, rfl, hid', htype', hformat'⟩ := same_placeholder_iff.mp h'
      exact same_placeholder_iff.mpr ⟨_, _, _, rfl, same_trans hid hid',
        same_trans htype htype', same_trans hformat hformat'⟩
  | .placeholder id type format (some xs) =>
      obtain ⟨_, _, _, _, rfl, hid, htype, hformat, hlength, hxs⟩ := same_choice_iff.mp h
      obtain ⟨_, _, _, _, rfl, hid', htype', hformat', hlength', hys⟩ := same_choice_iff.mp h'
      exact same_choice_iff.mpr ⟨_, _, _, _, rfl, same_trans hid hid', same_trans htype htype',
        same_trans hformat hformat', hlength.trans hlength', entriesIn_trans hxs hys⟩
  | .reference id =>
      obtain ⟨_, rfl, hid⟩ := same_reference_iff.mp h
      obtain ⟨_, rfl, hid'⟩ := same_reference_iff.mp h'
      exact same_reference_iff.mpr ⟨_, rfl, same_trans hid hid'⟩
  | .tag name children =>
      obtain ⟨_, _, rfl, hname, hchildren⟩ := same_tag_iff.mp h
      obtain ⟨_, _, rfl, hname', hchildren'⟩ := same_tag_iff.mp h'
      exact same_tag_iff.mpr ⟨_, _, rfl, same_trans hname hname', same_trans hchildren hchildren'⟩
  | .null | .bool _ | .int _ | .float _ | .str _ | .bytes _ =>
      exact same_trans_of_atom (fun w => by simp) h h'

theorem sameItems_trans
    {xs ys zs : List Value} (h : sameItems xs ys = true) (h' : sameItems ys zs = true) :
    sameItems xs zs = true := by
  match xs, ys, zs with
  | [], [], [] => rfl
  | [], [], z :: zs => exact h'
  | [], y :: ys, zs => cases h
  | x :: xs, [], zs => cases h
  | x :: xs, y :: ys, [] => cases h'
  | x :: xs, y :: ys, z :: zs =>
      simp only [sameItems, Bool.and_eq_true] at h h' ⊢
      exact ⟨same_trans h.1 h'.1, sameItems_trans h.2 h'.2⟩

theorem entriesIn_trans
    {xs ys zs : List (Value × Value)} (h : entriesIn xs ys = true) (h' : entriesIn ys zs = true) :
    entriesIn xs zs = true := by
  match xs with
  | [] => rfl
  | (key, v) :: rest =>
      simp only [entriesIn, Bool.and_eq_true, List.any_eq_true] at h ⊢
      obtain ⟨⟨y, hy, hkey, hv⟩, hrest⟩ := h
      obtain ⟨z, hz, hkey', hv'⟩ := entriesIn_iff.mp h' y hy
      exact ⟨⟨z, hz, same_trans hkey hkey', same_trans hv hv'⟩, entriesIn_trans hrest h'⟩

end

end Value

end MessageFormat
