import FieldContracts.Json.Literal
import FieldContracts.Json.Value

/-!
# Literals read back

`readLiteral_escaped` says that reading the literal of a text gives the text back, whatever
characters it holds and whatever follows the literal.
-/

namespace FieldContracts.Json

theorem hexDigit?_digitChar : ∀ n, n < 16 → hexDigit? (Nat.digitChar n) = some n := by
  decide

theorem readLiteralFrom_plain {c : Char} {before text : List Char} (hquote : c ≠ '"')
    (hslash : c ≠ '\\') (hcontrol : ¬ c.toNat < 0x20) :
    readLiteralFrom before (c :: text) = readLiteralFrom (c :: before) text := by
  rw [readLiteralFrom]
  simp [hquote, hslash, hcontrol]

theorem readLiteralFrom_escape {c d : Char} {before text : List Char} (hc : c ≠ 'u')
    (h : shortEscape? c = some d) :
    readLiteralFrom before ('\\' :: c :: text) = readLiteralFrom (d :: before) text := by
  rw [readLiteralFrom]
  have hread : readEscapedChar (c :: text) = .ok (d, text) := by
    simp [readEscapedChar, readEscape, hc, h]
  simp only [Char.reduceEq, if_false, if_true]
  split
  · next h => simp [hread] at h
  · next h =>
    rw [hread] at h
    obtain ⟨rfl, rfl⟩ : d = _ ∧ text = _ := by simpa using h
    rfl

theorem readLiteralFrom_unit {n : Nat} {before text : List Char} (hn : n < 0x20) :
    readLiteralFrom before
        ('\\' :: 'u' :: '0' :: '0' :: Nat.digitChar (n / 16) :: Nat.digitChar (n % 16) :: text) =
      readLiteralFrom (Char.ofNat n :: before) text := by
  have h1 := hexDigit?_digitChar (n / 16) (by omega)
  have h2 := hexDigit?_digitChar (n % 16) (by omega)
  have hbytes : ¬ leadingBytes
      ('0' :: '0' :: Nat.digitChar (n / 16) :: Nat.digitChar (n % 16) :: text) < 4 := by
    have hpos := Char.utf8Size_pos (Nat.digitChar (n / 16))
    have hpos' := Char.utf8Size_pos (Nat.digitChar (n % 16))
    simp [leadingBytes]
    have h0 : '0'.utf8Size = 1 := rfl
    omega
  have hread : readEscapedChar
      ('u' :: '0' :: '0' :: Nat.digitChar (n / 16) :: Nat.digitChar (n % 16) :: text) =
        .ok (Char.ofNat n, text) := by
    have hz : hexDigit? '0' = some 0 := by decide
    have hval : ((0 * 16 + 0) * 16 + n / 16) * 16 + n % 16 = n := by omega
    simp only [readEscapedChar, readEscape, if_true, readHex, hbytes, if_false, hz, h1, h2, hval]
    have : ¬ (0xDC00 ≤ n ∧ n < 0xE000) := by omega
    have : ¬ (0xD800 ≤ n ∧ n < 0xDC00) := by omega
    simp [completeUnit, *]
  rw [readLiteralFrom]
  simp only [Char.reduceEq, if_false, if_true]
  split
  · next h => simp [hread] at h
  · next h =>
    rw [hread] at h
    obtain ⟨rfl, rfl⟩ : Char.ofNat n = _ ∧ text = _ := by simpa using h
    rfl

theorem readLiteralFrom_escapedChar (c : Char) (before text : List Char) :
    readLiteralFrom before (escaped c ++ text) = readLiteralFrom (c :: before) text := by
  unfold escaped
  split
  case h_8 c h1 h2 h3 h4 h5 h6 h7 =>
    split
    · next hcontrol => simpa using readLiteralFrom_unit hcontrol
    · next hcontrol => exact readLiteralFrom_plain h1 h2 hcontrol
  all_goals exact readLiteralFrom_escape (by decide) rfl

theorem readLiteralFrom_escaped (s before rest : List Char) :
    readLiteralFrom before (s.flatMap escaped ++ '"' :: rest) =
      .ok (String.ofList (before.reverse ++ s), rest) := by
  induction s generalizing before with
  | nil => rw [List.flatMap_nil, List.nil_append, readLiteralFrom]; simp
  | cons c s ih =>
    rw [List.flatMap_cons, List.append_assoc, readLiteralFrom_escapedChar, ih]
    simp

/-- Reading undoes escaping. -/
theorem readLiteral_escaped (s : String) (rest : List Char) :
    readLiteral (s.toList.flatMap escaped ++ '"' :: rest) = .ok (s, rest) := by
  simp [readLiteral, readLiteralFrom_escaped]

end FieldContracts.Json
