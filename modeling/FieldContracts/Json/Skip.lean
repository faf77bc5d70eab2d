import FieldContracts.Json.Reader

/-!
# Skipping values

A value that nobody asks for is skipped to its end.  It must be JSON, but its numbers may be of any
size and its surrogates need not pair up.  Open lists and objects are kept on a stack, so nesting
has no limit.
-/

namespace FieldContracts.Json

/-- A list or an object whose end has not been reached. -/
inductive Enclosure where
  | list
  | object
deriving DecidableEq

def Enclosure.closing : Enclosure → Char
  | .list => ']'
  | .object => '\x7d'

/-- Skips the name of a member and the colon after it. -/
def skipName (text : List Char) : Except ReadError (List Char) :=
  match expectMark '"' text with
  | .error e => .error e
  | .ok rest =>
      match skipLiteral rest with
      | .error e => .error e
      | .ok rest => expectMark ':' rest

theorem skipName_length {text rest : List Char} (h : skipName text = .ok rest) :
    rest.length < text.length := by
  unfold skipName at h
  split at h
  · simp at h
  · next hquote =>
    split at h
    · simp at h
    · next hliteral =>
      exact Nat.lt_trans (expectMark_length h)
        (Nat.lt_trans (skipLiteral_length hliteral) (expectMark_length hquote))

/-- Skips a value that is no list and no object, and of which `c` is the first character. -/
def skipScalar (c : Char) (rest : List Char) : Except ReadError (List Char) :=
  if c = '"' then skipLiteral rest
  else if c = 'n' then expectChars ['u', 'l', 'l'] rest
  else if c = 't' then expectChars ['r', 'u', 'e'] rest
  else if c = 'f' then expectChars ['a', 'l', 's', 'e'] rest
  else if c = '-' || c.isDigit then skipNumber (c :: rest)
  else .error .malformed

theorem skipScalar_length {c : Char} {text rest : List Char}
    (h : skipScalar c text = .ok rest) : rest.length ≤ text.length := by
  unfold skipScalar at h
  split at h
  · exact Nat.le_of_lt (skipLiteral_length h)
  · split at h
    · exact expectChars_length h
    · split at h
      · exact expectChars_length h
      · split at h
        · exact expectChars_length h
        · split at h
          · exact Nat.le_of_lt_succ (skipNumber_length h)
          · simp at h

/-- What is due next while values are skipped. -/
inductive SkipStep where
  /-- A value is due at the front of the text, inside of these enclosures. -/
  | value (stack : List Enclosure) (text : List Char)
  /-- A value has ended before the text, inside of these enclosures. -/
  | ended (stack : List Enclosure) (text : List Char)

namespace SkipStep

def text : SkipStep → List Char
  | .value _ text => text
  | .ended _ text => text

/-- Opens a list or an object, which may end at once. -/
def opened (stack : List Enclosure) (enclosure : Enclosure) (text : List Char) :
    Except ReadError SkipStep :=
  match expectMark enclosure.closing text with
  | .ok rest => .ok (.ended stack rest)
  | .error _ =>
      -- A fault here is found again where the first item or name is due.
      match enclosure with
      | .list => .ok (.value (.list :: stack) text)
      | .object =>
          match skipName text with
          | .ok rest => .ok (.value (.object :: stack) rest)
          | .error e => .error e

/-- Skips a scalar, opens an enclosure, or takes the mark behind a value; `none` when the outermost
value has ended. -/
def next : SkipStep → Except ReadError (Option SkipStep)
  | .value stack text =>
      match skipBlanks text with
      | [] => .error .endsEarly
      | c :: rest =>
          if c = '[' then (opened stack .list rest).map some
          else if c = '\x7b' then (opened stack .object rest).map some
          else (skipScalar c rest).map fun rest => some (.ended stack rest)
  | .ended [] _ => .ok none
  | .ended (enclosure :: outer) text =>
      match skipBlanks text with
      | [] => .error .endsEarly
      | c :: rest =>
          if c = enclosure.closing then .ok (some (.ended outer rest))
          else if c = ',' then
            match enclosure with
            | .list => .ok (some (.value (.list :: outer) rest))
            | .object =>
                (skipName rest).map fun rest => some (.value (.object :: outer) rest)
          else .error .malformed

theorem opened_length {stack : List Enclosure} {enclosure : Enclosure} {text : List Char}
    {step : SkipStep} (h : opened stack enclosure text = .ok step) :
    step.text.length ≤ text.length := by
  unfold opened at h
  split at h
  · next hmark =>
    simp only [Except.ok.injEq] at h
    exact h ▸ Nat.le_of_lt (expectMark_length hmark)
  · split at h
    · simp only [Except.ok.injEq] at h
      exact h ▸ Nat.le_refl _
    · split at h
      · next hname =>
        simp only [Except.ok.injEq] at h
        exact h ▸ Nat.le_of_lt (skipName_length hname)
      · simp at h

private theorem map_eq_ok {ε α β : Type} {f : α → β} {x : Except ε α} {b : β}
    (h : x.map f = .ok b) : ∃ a, x = .ok a ∧ f a = b := by
  cases x with
  | error e => simp [Except.map] at h
  | ok a => exact ⟨a, rfl, by simpa [Except.map] using h⟩

theorem next_length {step later : SkipStep} (h : step.next = .ok (some later)) :
    later.text.length < step.text.length := by
  unfold next at h
  split at h
  · next stack text =>
    split at h
    · simp at h
    · next c rest hblanks =>
      have hrest := length_lt_of_skipBlanks hblanks
      split at h
      · obtain ⟨opened, hopened, heq⟩ := map_eq_ok h
        obtain rfl := Option.some.inj heq
        exact Nat.lt_of_le_of_lt (opened_length hopened) hrest
      · split at h
        · obtain ⟨opened, hopened, heq⟩ := map_eq_ok h
          obtain rfl := Option.some.inj heq
          exact Nat.lt_of_le_of_lt (opened_length hopened) hrest
        · obtain ⟨behind, hscalar, heq⟩ := map_eq_ok h
          obtain rfl := Option.some.inj heq
          exact Nat.lt_of_le_of_lt (skipScalar_length hscalar) hrest
  · simp at h
  · next enclosure outer text =>
    split at h
    · simp at h
    · next c rest hblanks =>
      have hrest := length_lt_of_skipBlanks hblanks
      split at h
      · simp only [Except.ok.injEq, Option.some.injEq] at h
        exact h ▸ hrest
      · split at h
        · split at h
          · simp only [Except.ok.injEq, Option.some.injEq] at h
            exact h ▸ hrest
          · obtain ⟨behind, hname, heq⟩ := map_eq_ok h
            obtain rfl := Option.some.inj heq
            exact Nat.lt_trans (skipName_length hname) hrest
        · simp at h

/-- Goes on until the outermost value has ended, and gives the text behind it. -/
def finish (step : SkipStep) : Except ReadError (List Char) :=
  match _h : step.next with
  | .error e => .error e
  | .ok none => .ok step.text
  | .ok (some later) => finish later
termination_by step.text.length
decreasing_by exact next_length _h

theorem finish_length {step : SkipStep} {rest : List Char} (h : step.finish = .ok rest) :
    rest.length ≤ step.text.length := by
  fun_induction finish step with
  | case1 => simp at h
  | case2 => simp_all
  | case3 step later hnext ih => exact Nat.le_trans (ih h) (Nat.le_of_lt (next_length hnext))

end SkipStep

/-- Skips one value. -/
def skipValue : Reader Unit where
  run text :=
    match (SkipStep.value [] text).next with
    | .error e => .error e
    | .ok none => .error .malformed
    | .ok (some step) => step.finish.map fun rest => ((), rest)
  shorter {text value rest} h := by
    split at h
    · simp at h
    · simp at h
    · next step hnext =>
      have hlt := SkipStep.next_length hnext
      cases hfinish : step.finish with
      | error e => simp [hfinish, Except.map] at h
      | ok behind =>
        simp only [hfinish, Except.map, Except.ok.injEq, Prod.mk.injEq] at h
        exact h.2 ▸ Nat.lt_of_le_of_lt (SkipStep.finish_length hfinish) hlt

end FieldContracts.Json
