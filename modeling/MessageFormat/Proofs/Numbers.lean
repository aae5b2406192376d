import Mathlib.Data.Nat.Digits.Defs
import MessageFormat.Proofs.Tokens

/-!
# Numbers behind the offset keyword

Behind the offset keyword stand blanks, at most one sign and digits, each run as long as it can be.
Every text is cut in this way (`NumberCut.nonempty_numberCut`), and the cut decides what is read
(`NumberCut.readNumber_eq`).

Reading multiplies what it has by ten for each further digit. What the digits write is the sum of
their values by their places instead, and the two are the same for every run of digits, zeros in
front included (`ofDigitChars_eq_ofDigits`).
-/

namespace MessageFormat

variable {text : List Char}

/-- Whether a character is a sign. -/
def isSign (c : Char) : Bool :=
  c == '-' || c == '+'

/-- A text cut into blanks, a sign, digits and what follows them, where every part is as long as it
can be: no blank stands behind the blanks and no digit behind the digits, and a sign is taken if one
stands behind the blanks. -/
structure NumberCut (text : List Char) where
  blanks : List Char
  sign : List Char
  digits : List Char
  after : List Char
  text_eq : text = blanks ++ (sign ++ (digits ++ after))
  blanks_run : blanks.all isBlank = true
  blanks_end : (sign ++ (digits ++ after)).head?.any isBlank = false
  sign_mem : sign ∈ [[], ['-'], ['+']]
  sign_end : sign = [] → (digits ++ after).head?.any isSign = false
  digits_run : digits.all Char.isDigit = true
  digits_end : after.head?.any Char.isDigit = false

/-- The value of a digit. -/
def digitValue (c : Char) : Nat :=
  c.toNat - '0'.toNat

/-- The number that digits write: the sum of their values by their places. -/
theorem ofDigitChars_eq_ofDigits
    (digits : List Char) :
    Nat.ofDigitChars 10 digits 0 = Nat.ofDigits 10 (digits.reverse.map digitValue) := by
  induction digits with
  | nil => rfl
  | cons c digits ih =>
      rw [List.map_reverse] at ih
      rw [Nat.ofDigitChars_cons, Nat.ofDigitChars_eq_ofDigitChars_zero, ih, List.map_reverse,
        List.map_cons, Nat.ofDigits_reverse_cons, List.length_map, Nat.mul_zero, Nat.zero_add,
        Nat.add_comm, digitValue]

namespace NumberCut

/-- Behind the blanks and the sign, the digits are the first run of them. -/
theorem nonempty_of_sign
    (sign rest : List Char) (hskip : skipBlanks text = sign ++ rest)
    (hsign : sign ∈ [[], ['-'], ['+']]) (hend : sign = [] → rest.head?.any isSign = false) :
    Nonempty (NumberCut text) := by
  have hrest : rest.takeWhile Char.isDigit ++ rest.dropWhile Char.isDigit = rest :=
    List.takeWhile_append_dropWhile
  refine ⟨⟨text.takeWhile isBlank, sign, rest.takeWhile Char.isDigit,
    rest.dropWhile Char.isDigit, ?_, List.all_takeWhile, ?_, hsign, ?_, List.all_takeWhile,
    head?_dropWhile Char.isDigit rest⟩⟩
  · rw [hrest, ← hskip, skipBlanks, List.takeWhile_append_dropWhile]
  · rw [hrest, ← hskip]
    exact head?_skipBlanks text
  · rw [hrest]
    exact hend

/-- Every text can be cut. -/
theorem nonempty_numberCut
    (text : List Char) :
    Nonempty (NumberCut text) := by
  cases hskip : skipBlanks text with
  | nil => exact nonempty_of_sign [] [] hskip (by simp) (fun _ => rfl)
  | cons c rest =>
      by_cases hminus : c = '-'
      · subst hminus
        exact nonempty_of_sign ['-'] rest hskip (by simp) nofun
      · by_cases hplus : c = '+'
        · subst hplus
          exact nonempty_of_sign ['+'] rest hskip (by simp) nofun
        · exact nonempty_of_sign [] (c :: rest) hskip (by simp)
            (fun _ => by simp [isSign, hminus, hplus])

/-- The number that is written. -/
def value (cut : NumberCut text) : Int :=
  let magnitude : Nat := Nat.ofDigits 10 (cut.digits.reverse.map digitValue)
  if cut.sign = ['-'] then
    -(magnitude : Int)
  else
    magnitude

variable (cut : NumberCut text)

theorem skipBlanks_eq :
    skipBlanks text = cut.sign ++ (cut.digits ++ cut.after) := by
  have h := (span_run cut.blanks_run cut.blanks_end).2
  rwa [← cut.text_eq] at h

/-- A numeral is the sign and the digits of the cut. -/
theorem read_eq :
    Numeral.read (cut.sign ++ (cut.digits ++ cut.after)) =
      (⟨decide (cut.sign = ['-']), cut.digits⟩, cut.after) := by
  obtain ⟨htake, hdrop⟩ := span_run cut.digits_run cut.digits_end
  have hsign := cut.sign_mem
  simp only [List.mem_cons, List.not_mem_nil, or_false] at hsign
  rcases hsign with hnone | hminus | hplus
  · have hend := cut.sign_end hnone
    rw [hnone, List.nil_append]
    cases hrest : cut.digits ++ cut.after with
    | nil =>
        obtain ⟨hdigits, hafter⟩ := List.append_eq_nil_iff.mp hrest
        rw [hdigits, hafter]
        rfl
    | cons c rest =>
        rw [hrest] at hend htake hdrop
        have hc : c ≠ '-' ∧ c ≠ '+' := by
          simpa [isSign] using hend
        rw [Numeral.read_unsigned hc.1 hc.2, htake, hdrop]
        rfl
  · rw [hminus]
    simp [Numeral.read, htake, hdrop]
  · rw [hplus]
    simp [Numeral.read, htake, hdrop]

theorem value_eq :
    (⟨decide (cut.sign = ['-']), cut.digits⟩ : Numeral).value = cut.value := by
  simp only [Numeral.value, value, ofDigitChars_eq_ofDigits, decide_eq_true_eq]

/-- The cut decides what is read behind the keyword. -/
theorem readNumber_eq :
    Dialect.readNumber text =
      if cut.digits = [] then
        .unnumbered (cut.sign ++ cut.after)
      else if maxDigits < cut.digits.length then
        .overlong cut.digits.length cut.after
      else
        .offset cut.value cut.after := by
  simp only [Dialect.readNumber, cut.skipBlanks_eq, cut.read_eq, Seam.across?_none,
    Dialect.numberClause, cut.value_eq, List.isEmpty_iff]
  split
  · next hnone => rw [hnone, List.nil_append]
  · rfl

end NumberCut

end MessageFormat
