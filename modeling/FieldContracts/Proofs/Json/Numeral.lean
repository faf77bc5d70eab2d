import FieldContracts.Json.Numeral
import FieldContracts.Proofs.Json.Spelling

/-!
# Numerals read back

`readNumber_toDigits` says that the decimal digits of a number below `2 ^ 64` are read as that
number, whatever follows them and does not lengthen them.
-/

namespace FieldContracts.Json

/-! ## The digits of a number -/

theorem all_isDigit_toDigits (n : Nat) : ∀ c ∈ Nat.toDigits 10 n, c.isDigit = true :=
  fun _ hc => Nat.isDigit_of_mem_toDigits (by decide) (by decide) hc

/-- A positive number has no zero in front. -/
theorem head?_toDigits_ne_zero {n : Nat} (hn : 0 < n) : (Nat.toDigits 10 n).head? ≠ some '0' := by
  induction n using Nat.strongRecOn with
  | ind n ih =>
      by_cases hsmall : n < 10
      · have hdigit : ∀ d < 10, 0 < d → Nat.digitChar d ≠ '0' := by decide
        rw [Nat.toDigits_of_lt_base hsmall]
        simpa using hdigit n hsmall hn
      · have hfront := ih (n / 10) (by omega) (by omega)
        rw [Nat.toDigits_of_base_le (by decide) (by omega)]
        rwa [List.head?_append_of_ne_nil _ Nat.toDigits_ne_nil]

/-- Digits behind a number only make it larger. -/
theorem le_ofDigitChars (digits : List Char) (n : Nat) : n ≤ Nat.ofDigitChars 10 digits n := by
  rw [Nat.ofDigitChars_eq_ofDigitChars_zero]
  have hpos : 0 < 10 ^ digits.length := Nat.pow_pos (by decide)
  have hle : 1 * n ≤ 10 ^ digits.length * n := Nat.mul_le_mul_right n hpos
  omega

/-- Digits that fit are all taken. -/
theorem absorb_eq {digits : List Char} {n : Nat}
    (h : Nat.ofDigitChars 10 digits n < Nat.pow 2 64) :
    absorb n digits = (Nat.ofDigitChars 10 digits n, []) := by
  induction digits generalizing n with
  | nil => simp [absorb]
  | cons d rest ih =>
      have hstep : Nat.ofDigitChars 10 (d :: rest) n =
          Nat.ofDigitChars 10 rest (Nat.ofDigitChars 10 [d] n) := by
        simp [Nat.ofDigitChars_cons]
      rw [hstep] at h ⊢
      have hfits : Nat.ofDigitChars 10 [d] n < Nat.pow 2 64 :=
        Nat.lt_of_le_of_lt (le_ofDigitChars rest _) h
      rw [absorb]
      simp only [hfits, if_true]
      exact ih h

/-! ## Reading them -/

theorem splitDigits_append {digits rest : List Char} (hdigits : ∀ c ∈ digits, c.isDigit = true)
    (hrest : Delimited rest) : splitDigits (digits ++ rest) = (digits, rest) := by
  have hstop : rest.takeWhile Char.isDigit = [] ∧ rest.dropWhile Char.isDigit = rest := by
    cases rest with
    | nil => exact ⟨rfl, rfl⟩
    | cons c rest =>
        have hc : ¬ c.isDigit = true := by simp [(delimited_cons.mp hrest).1]
        exact ⟨List.takeWhile_cons_of_neg hc, List.dropWhile_cons_of_neg hc⟩
  rw [splitDigits, List.takeWhile_append_of_pos hdigits, List.dropWhile_append_of_pos hdigits,
    hstop.1, hstop.2, List.append_nil]

theorem readWhole_toDigits (n : Nat) {rest : List Char} (hrest : Delimited rest) :
    readWhole (Nat.toDigits 10 n ++ rest) = .ok (Nat.toDigits 10 n, rest) := by
  obtain ⟨c, digits, hdigits, hc⟩ := exists_toDigits_eq_cons n
  have hread : readDigits (Nat.toDigits 10 n ++ rest) = .ok (Nat.toDigits 10 n, rest) := by
    rw [← splitDigits_append (all_isDigit_toDigits n) hrest, hdigits, List.cons_append, readDigits,
      if_pos hc]
  rw [readWhole, hread]
  split
  · next h => simp at h
  · next heq =>
      obtain ⟨rfl, rfl⟩ : Nat.toDigits 10 n = _ ∧ rest = _ := by simpa using heq
      split
      · next hzero =>
          rcases Nat.eq_zero_or_pos n with rfl | hpos
          · simp [Nat.toDigits_zero] at hzero
          · exact absurd (by rw [hzero]; rfl) (head?_toDigits_ne_zero hpos)
      · rfl

theorem readFraction_delimited {text : List Char} (h : Delimited text) :
    readFraction text = .ok ([], text) := by
  unfold readFraction
  split
  · exact absurd rfl (delimited_cons.mp h).2.1
  · rfl

theorem readExponent_delimited {text : List Char} (h : Delimited text) :
    readExponent text = .ok (none, text) := by
  cases text with
  | nil => rfl
  | cons c rest =>
      obtain ⟨_, _, hlower, hupper⟩ := delimited_cons.mp h
      simp [readExponent, hlower, hupper]

theorem readNumeral_toDigits (n : Nat) {rest : List Char} (hrest : Delimited rest) :
    readNumeral (Nat.toDigits 10 n ++ rest) = .ok (⟨false, Nat.toDigits 10 n, [], none⟩, rest) := by
  have hunsigned : readUnsigned false (Nat.toDigits 10 n ++ rest) =
      .ok (⟨false, Nat.toDigits 10 n, [], none⟩, rest) := by
    simp only [readUnsigned, readWhole_toDigits n hrest, readFraction_delimited hrest,
      readExponent_delimited hrest]
  obtain ⟨c, digits, hdigits, hc⟩ := exists_toDigits_eq_cons n
  rw [← hunsigned, hdigits, List.cons_append]
  unfold readNumeral
  split
  · next h =>
      obtain ⟨rfl, _⟩ : c = '-' ∧ _ := by simpa using h
      simp at hc
  · rfl

/-- Digits of a number that fits into 64 bits are read as that number. -/
theorem readNumber_toDigits {n : Nat} (hn : n < Nat.pow 2 64) {rest : List Char}
    (hrest : Delimited rest) :
    readNumber (Nat.toDigits 10 n ++ rest) = .ok (.integer n, rest) := by
  have hvalue : Nat.ofDigitChars 10 (Nat.toDigits 10 n) 0 = n := Nat.ofDigitChars_ten_toDigits
  have habsorb : absorb 0 (Nat.toDigits 10 n) = (n, []) := by
    rw [absorb_eq (by rwa [hvalue]), hvalue]
  rw [readNumber, readNumeral_toDigits n hrest]
  simp [Numeral.value?, habsorb, Numeral.integerValue]

end FieldContracts.Json
