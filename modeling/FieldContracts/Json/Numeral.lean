import FieldContracts.Json.Error

/-!
# Reading numerals

A numeral is read as its parts, and its value is taken afterwards: an integer if it is written
without fraction and exponent and has at most 64 bits, a floating point number otherwise.  Digits
that do not fit into 64 bits count only as places.
-/

namespace FieldContracts.Json

/-- The parts of a numeral.  Only a numeral without a point has no fraction digits. -/
structure Numeral where
  negative : Bool
  whole : List Char
  fraction : List Char
  exponent : Option Int
deriving DecidableEq, Repr

inductive Number where
  | integer (n : Int)
  | floating (x : Float)

/-- The digits at the front of a text and what follows them. -/
def splitDigits (text : List Char) : List Char × List Char :=
  (text.takeWhile Char.isDigit, text.dropWhile Char.isDigit)

/-- At least one digit must stand at the front of the text. -/
def readDigits (text : List Char) : Except ReadError (List Char × List Char) :=
  match text with
  | [] => .error .endsEarly
  | c :: _ => if c.isDigit then .ok (splitDigits text) else .error .malformed

/-- The whole part has no zero in front of other digits. -/
def readWhole (text : List Char) : Except ReadError (List Char × List Char) :=
  match readDigits text with
  | .error e => .error e
  | .ok (digits, rest) =>
      match digits with
      | '0' :: _ :: _ => .error .malformed
      | _ => .ok (digits, rest)

/-- The digits behind a point, if there is one. -/
def readFraction (text : List Char) : Except ReadError (List Char × List Char) :=
  match text with
  | '.' :: rest => readDigits rest
  | _ => .ok ([], text)

/-- Takes a sign from the front of the text, and says whether it is a minus. -/
def splitSign (text : List Char) : Bool × List Char :=
  match text with
  | '-' :: rest => (true, rest)
  | '+' :: rest => (false, rest)
  | _ => (false, text)

/-- The exponent, if there is one. -/
def readExponent (text : List Char) : Except ReadError (Option Int × List Char) :=
  match text with
  | c :: rest =>
      if c = 'e' ∨ c = 'E' then
        match readDigits (splitSign rest).2 with
        | .error e => .error e
        | .ok (digits, rest') =>
            let size : Int := Nat.ofDigitChars 10 digits 0
            .ok (some (if (splitSign rest).1 then -size else size), rest')
      else .ok (none, text)
  | [] => .ok (none, text)

/-- Reads a numeral from behind its sign. -/
def readUnsigned (negative : Bool) (text : List Char) :
    Except ReadError (Numeral × List Char) :=
  match readWhole text with
  | .error e => .error e
  | .ok (whole, rest) =>
      match readFraction rest with
      | .error e => .error e
      | .ok (fraction, rest) =>
          match readExponent rest with
          | .error e => .error e
          | .ok (exponent, rest) => .ok (⟨negative, whole, fraction, exponent⟩, rest)

/-- Reads a numeral. -/
def readNumeral (text : List Char) : Except ReadError (Numeral × List Char) :=
  match text with
  | '-' :: rest => readUnsigned true rest
  | _ => readUnsigned false text

/-- Appends digits to a number as long as it stays below `2 ^ 64`; gives the digits left over. -/
def absorb (n : Nat) : List Char → Nat × List Char
  | [] => (n, [])
  | d :: rest =>
      let next := Nat.ofDigitChars 10 [d] n
      if next < Nat.pow 2 64 then absorb next rest else (n, d :: rest)

/-- The number `significand * 10 ^ exponent`, multiplied or divided by powers of ten that are floating
point numbers themselves; `none` if it is too large. -/
def scaled? (significand : Nat) (exponent : Int) : Option Float :=
  let x := significand.toUInt64.toFloat
  if significand == 0 then some 0
  else if exponent > 308 then none
  else if exponent ≥ 0 then
    let product := x * Float.ofScientific 1 false exponent.toNat
    if product.isInf then none else some product
  else if exponent ≥ -308 then some (x / Float.ofScientific 1 false (-exponent).toNat)
  else if exponent ≥ -616 then
    -- No power below `10 ^ -308` has full precision, so the division is done in two steps.
    some (x / Float.ofScientific 1 false 308 / Float.ofScientific 1 false (-exponent - 308).toNat)
  else
    -- Even the largest significand is closer to zero than to any other number here.
    some 0

namespace Numeral

/-- The value of an integer numeral of this size; a negative one below `-2 ^ 63` and the negative
zero are floating point numbers. -/
def integerValue (n : Numeral) (size : Nat) : Number :=
  if !n.negative then .integer size
  else if size == 0 || size > Nat.pow 2 63 then .floating (-size.toUInt64.toFloat)
  else .integer (-size)

/-- The value of a numeral, unless it is too large. -/
def value? (n : Numeral) : Option Number :=
  let (size, dropped) := absorb 0 n.whole
  if dropped.isEmpty && n.fraction.isEmpty && n.exponent.isNone then
    some (n.integerValue size)
  else
    let (significand, left) := absorb size n.fraction
    let places : Int := dropped.length + left.length - n.fraction.length
    (scaled? significand (places + n.exponent.getD 0)).map fun x =>
      .floating (if n.negative then -x else x)

end Numeral

/-- Reads a number. -/
def readNumber (text : List Char) : Except ReadError (Number × List Char) :=
  match readNumeral text with
  | .error e => .error e
  | .ok (numeral, rest) =>
      match numeral.value? with
      | none => .error .malformed
      | some number => .ok (number, rest)

/-- Finds the end of a number, which may be of any size. -/
def skipNumber (text : List Char) : Except ReadError (List Char) :=
  match readNumeral text with
  | .error _ => .error .malformed
  | .ok (_, rest) => .ok rest

theorem readDigits_length {text digits rest : List Char}
    (h : readDigits text = .ok (digits, rest)) : rest.length < text.length := by
  unfold readDigits at h
  split at h
  · simp at h
  · next c tail =>
    split at h
    · next hdigit =>
      simp only [splitDigits, Except.ok.injEq, Prod.mk.injEq] at h
      rw [← h.2, List.dropWhile_cons, if_pos hdigit]
      exact Nat.lt_succ_of_le (List.dropWhile_suffix _).length_le
    · simp at h

theorem readWhole_length {text digits rest : List Char}
    (h : readWhole text = .ok (digits, rest)) : rest.length < text.length := by
  unfold readWhole at h
  split at h
  · simp at h
  · next hdigits =>
    split at h
    · simp at h
    · simp only [Except.ok.injEq, Prod.mk.injEq] at h
      exact h.2 ▸ readDigits_length hdigits

theorem readFraction_length {text digits rest : List Char}
    (h : readFraction text = .ok (digits, rest)) : rest.length ≤ text.length := by
  unfold readFraction at h
  split at h
  · exact Nat.le_succ_of_le (Nat.le_of_lt (readDigits_length h))
  · simp_all

theorem splitSign_length (text : List Char) : (splitSign text).2.length ≤ text.length := by
  unfold splitSign
  split <;> simp

theorem readExponent_length {text rest : List Char} {exponent : Option Int}
    (h : readExponent text = .ok (exponent, rest)) : rest.length ≤ text.length := by
  unfold readExponent at h
  split at h
  · next c tail =>
    split at h
    · split at h
      · simp at h
      · next hdigits =>
        simp only [Except.ok.injEq, Prod.mk.injEq] at h
        have := readDigits_length hdigits
        have := splitSign_length tail
        simp only [← h.2, List.length_cons]
        omega
    · simp only [Except.ok.injEq, Prod.mk.injEq] at h
      simp [← h.2]
  · simp_all

theorem readUnsigned_length {negative : Bool} {text rest : List Char} {n : Numeral}
    (h : readUnsigned negative text = .ok (n, rest)) : rest.length < text.length := by
  unfold readUnsigned at h
  split at h
  · simp at h
  · next hwhole =>
    split at h
    · simp at h
    · next hfraction =>
      split at h
      · simp at h
      · next hexponent =>
        simp only [Except.ok.injEq, Prod.mk.injEq] at h
        have := readWhole_length hwhole
        have := readFraction_length hfraction
        have := readExponent_length hexponent
        simp only [← h.2]
        omega

theorem readNumeral_length {text rest : List Char} {n : Numeral}
    (h : readNumeral text = .ok (n, rest)) : rest.length < text.length := by
  unfold readNumeral at h
  split at h
  · exact Nat.lt_succ_of_lt (readUnsigned_length h)
  · exact readUnsigned_length h

theorem readNumber_length {text rest : List Char} {n : Number}
    (h : readNumber text = .ok (n, rest)) : rest.length < text.length := by
  unfold readNumber at h
  split at h
  · simp at h
  · next hnumeral =>
    split at h
    · simp at h
    · simp only [Except.ok.injEq, Prod.mk.injEq] at h
      exact h.2 ▸ readNumeral_length hnumeral

theorem skipNumber_length {text rest : List Char} (h : skipNumber text = .ok rest) :
    rest.length < text.length := by
  unfold skipNumber at h
  split at h
  · simp at h
  · next hnumeral =>
    simp only [Except.ok.injEq] at h
    exact h ▸ readNumeral_length hnumeral

end FieldContracts.Json
