import FieldContracts.Json.Error

/-!
# Reading string literals

A literal is read from behind its opening quote.  `readLiteral` gives the text that it denotes,
and refuses control characters and surrogates that do not pair up; `skipLiteral` only finds its
end, and lets such surrogates pass.
-/

namespace FieldContracts.Json

/-- The number that a hexadecimal digit stands for. -/
def hexDigit? (c : Char) : Option Nat :=
  if '0' ≤ c ∧ c ≤ '9' then some (c.toNat - '0'.toNat)
  else if 'a' ≤ c ∧ c ≤ 'f' then some (c.toNat - 'a'.toNat + 10)
  else if 'A' ≤ c ∧ c ≤ 'F' then some (c.toNat - 'A'.toNat + 10)
  else none

/-- The number of bytes that the first four characters take, or all if there are fewer. -/
def leadingBytes (text : List Char) : Nat :=
  (text.take 4).foldr (fun c bytes => c.utf8Size + bytes) 0

/-- Reads four hexadecimal digits.  Fewer than four bytes are too few, whatever they are. -/
def readHex (text : List Char) : Except ReadError (Nat × List Char) :=
  -- A text that ends within the four bytes is too short before any digit is judged.
  if leadingBytes text < 4 then .error .endsEarly
  else
    match text with
    | a :: b :: c :: d :: rest =>
        match hexDigit? a, hexDigit? b, hexDigit? c, hexDigit? d with
        | some a, some b, some c, some d => .ok (((a * 16 + b) * 16 + c) * 16 + d, rest)
        | _, _, _, _ => .error .malformed
    | _ => .error .malformed

/-- What stands behind a backslash. -/
inductive Escape where
  | char (c : Char)
  /-- A UTF-16 code unit. -/
  | unit (n : Nat)

/-- The character that an escape of one letter denotes. -/
def shortEscape? (c : Char) : Option Char :=
  match c with
  | '"' => some '"'
  | '\\' => some '\\'
  | '/' => some '/'
  | 'b' => some '\x08'
  | 'f' => some '\x0c'
  | 'n' => some '\n'
  | 'r' => some '\r'
  | 't' => some '\t'
  | _ => none

/-- Reads an escape from behind its backslash. -/
def readEscape : List Char → Except ReadError (Escape × List Char)
  | [] => .error .endsEarly
  | c :: rest =>
      if c = 'u' then
        match readHex rest with
        | .ok (n, rest) => .ok (.unit n, rest)
        | .error e => .error e
      else
        match shortEscape? c with
        | some d => .ok (.char d, rest)
        | none => .error .malformed

/-- Reads the code unit that must follow the first half of a pair. -/
def readSecondHalf : List Char → Except ReadError (Nat × List Char)
  | [] => .error .endsEarly
  | ['\\'] => .error .endsEarly
  | '\\' :: 'u' :: rest => readHex rest
  | _ => .error .malformed

/-- The character outside the basic plane that two code units denote together. -/
def pairedChar (first second : Nat) : Char :=
  Char.ofNat (0x10000 + (first - 0xD800) * 0x400 + (second - 0xDC00))

/-- Completes a code unit to a character: a first half takes the second with it, and a second half
does not stand alone. -/
def completeUnit (n : Nat) (text : List Char) : Except ReadError (Char × List Char) :=
  if 0xDC00 ≤ n ∧ n < 0xE000 then .error .malformed
  else if 0xD800 ≤ n ∧ n < 0xDC00 then
    match readSecondHalf text with
    | .error e => .error e
    | .ok (m, rest) =>
        if 0xDC00 ≤ m ∧ m < 0xE000 then .ok (pairedChar n m, rest) else .error .malformed
  else .ok (Char.ofNat n, text)

/-- Reads the character that an escape denotes, from behind its backslash. -/
def readEscapedChar (text : List Char) : Except ReadError (Char × List Char) :=
  match readEscape text with
  | .error e => .error e
  | .ok (.char c, rest) => .ok (c, rest)
  | .ok (.unit n, rest) => completeUnit n rest

theorem readHex_length {text rest : List Char} {n : Nat} (h : readHex text = .ok (n, rest)) :
    rest.length < text.length := by
  unfold readHex at h
  split at h
  · simp at h
  · split at h
    · split at h
      · simp only [Except.ok.injEq, Prod.mk.injEq] at h
        simp [← h.2]
        omega
      · simp at h
    · simp at h

theorem readEscape_length {text rest : List Char} {e : Escape}
    (h : readEscape text = .ok (e, rest)) : rest.length < text.length := by
  unfold readEscape at h
  split at h
  · simp at h
  · split at h
    · split at h
      · next hhex =>
        simp only [Except.ok.injEq, Prod.mk.injEq] at h
        have := readHex_length hhex
        simp [← h.2]
        omega
      · simp at h
    · split at h
      · simp only [Except.ok.injEq, Prod.mk.injEq] at h
        simp [← h.2]
      · simp at h

theorem completeUnit_length {n : Nat} {text rest : List Char} {c : Char}
    (h : completeUnit n text = .ok (c, rest)) : rest.length ≤ text.length := by
  unfold completeUnit at h
  split at h
  · simp at h
  · split at h
    · split at h
      · simp at h
      · next hsecond =>
        split at h
        · simp only [Except.ok.injEq, Prod.mk.injEq] at h
          obtain ⟨_, rfl⟩ := h
          unfold readSecondHalf at hsecond
          split at hsecond
          · simp at hsecond
          · simp at hsecond
          · have := readHex_length hsecond
            simp only [List.length_cons]
            omega
          · simp at hsecond
        · simp at h
    · simp only [Except.ok.injEq, Prod.mk.injEq] at h
      simp [h.2]

theorem readEscapedChar_length {text rest : List Char} {c : Char}
    (h : readEscapedChar text = .ok (c, rest)) : rest.length < text.length := by
  unfold readEscapedChar at h
  split at h
  · simp at h
  · next hescape =>
    simp only [Except.ok.injEq, Prod.mk.injEq] at h
    exact h.2 ▸ readEscape_length hescape
  · next hescape =>
    exact Nat.lt_of_le_of_lt (completeUnit_length h) (readEscape_length hescape)

/-- Reads the rest of a literal behind the characters of `before`, which stand in reverse. -/
def readLiteralFrom (before : List Char) (text : List Char) :
    Except ReadError (String × List Char) :=
  match text with
  | [] => .error .endsEarly
  | c :: rest =>
      if c = '"' then .ok (String.ofList before.reverse, rest)
      else if c = '\\' then
        match _h : readEscapedChar rest with
        | .error e => .error e
        | .ok (d, rest') => readLiteralFrom (d :: before) rest'
      else if c.toNat < 0x20 then .error .malformed
      else readLiteralFrom (c :: before) rest
termination_by text.length
decreasing_by
  · exact Nat.lt_succ_of_lt (readEscapedChar_length _h)
  · exact Nat.lt_succ_self _

/-- Reads a literal from behind its opening quote. -/
def readLiteral (text : List Char) : Except ReadError (String × List Char) :=
  readLiteralFrom [] text

/-- Finds the end of a literal from behind its opening quote. -/
def skipLiteral (text : List Char) : Except ReadError (List Char) :=
  match text with
  | [] => .error .endsEarly
  | c :: rest =>
      if c = '"' then .ok rest
      else if c = '\\' then
        match _h : readEscape rest with
        | .error e => .error e
        | .ok (_, rest') => skipLiteral rest'
      else if c.toNat < 0x20 then .error .malformed
      else skipLiteral rest
termination_by text.length
decreasing_by
  · exact Nat.lt_succ_of_lt (readEscape_length _h)
  · exact Nat.lt_succ_self _

theorem readLiteralFrom_length {before text rest : List Char} {s : String}
    (h : readLiteralFrom before text = .ok (s, rest)) : rest.length < text.length := by
  fun_induction readLiteralFrom before text with
  | case1 => simp at h
  | case2 => simp_all
  | case3 => simp at h
  | case4 before text d rest' hescape _ ih =>
    have := ih h
    have := readEscapedChar_length hescape
    simp
    omega
  | case5 => simp at h
  | case6 before c text _ _ _ ih =>
    have := ih h
    simp
    omega

theorem readLiteral_length {text rest : List Char} {s : String}
    (h : readLiteral text = .ok (s, rest)) : rest.length < text.length :=
  readLiteralFrom_length h

theorem skipLiteral_length {text rest : List Char} (h : skipLiteral text = .ok rest) :
    rest.length < text.length := by
  fun_induction skipLiteral text with
  | case1 => simp at h
  | case2 => simp_all
  | case3 => simp at h
  | case4 text e rest' hescape _ ih =>
    have := ih h
    have := readEscape_length hescape
    simp
    omega
  | case5 => simp at h
  | case6 c text _ _ _ ih =>
    have := ih h
    simp
    omega

end FieldContracts.Json
