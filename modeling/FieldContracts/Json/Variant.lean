import FieldContracts.Json.Format

/-!
# Variants

A variant is read from its bare name, or from an object with its name as the only member.  A
variant that holds a value is never a bare name, and one that holds none has the member `null`.
-/

namespace FieldContracts.Json

/-- What a variant holds, and the value that it stands for. -/
inductive Variant (α : Type) where
  | bare (value : α)
  | holding (payload : Reader α)

/-- Reads the value of the only member. -/
def Variant.payload {α : Type} : Variant α → Reader α
  | .bare value => Reader.null "unit" value
  | .holding payload => payload

/-- The variant of this name. -/
def findVariant {α : Type} (variants : List (String × Variant α)) (name : String) :
    Except ReadError (Variant α) :=
  match variants.lookup name with
  | some variant => .ok variant
  | none => .error (.unfitting (.unknownVariant name (variants.map (·.1))))

/-- Reads a variant written as an object, from behind the opening brace. -/
def readTagged {α : Type} (variants : List (String × Variant α)) (text : List Char) :
    Except ReadError (α × List Char) :=
  match Reader.memberName.run text with
  | .error e => .error e
  | .ok (name, rest) =>
      match findVariant variants name with
      | .error e => .error e
      | .ok variant =>
          match variant.payload.afterColon.run rest with
          | .error e => .error e
          | .ok (value, rest) => (expectMark '\x7d' rest).map fun rest => (value, rest)

/-- Reads a variant written as its bare name, from behind the opening quote. -/
def readBare {α : Type} (variants : List (String × Variant α)) (text : List Char) :
    Except ReadError (α × List Char) :=
  match readLiteral text with
  | .error e => .error e
  | .ok (name, rest) =>
      match findVariant variants name with
      | .error e => .error e
      | .ok (.bare value) => .ok (value, rest)
      | .ok (.holding _) => .error (.unfitting (.wrongType .unitVariant "newtype variant"))

theorem readTagged_length {α : Type} {variants : List (String × Variant α)}
    {text rest : List Char} {value : α} (h : readTagged variants text = .ok (value, rest)) :
    rest.length ≤ text.length := by
  unfold readTagged at h
  split at h
  · simp at h
  · next hname =>
    split at h
    · simp at h
    · next variant _ =>
      split at h
      · simp at h
      · next behind hpayload =>
        cases hmark : expectMark '\x7d' behind with
        | error e => simp [hmark, Except.map] at h
        | ok after =>
          simp only [hmark, Except.map, Except.ok.injEq, Prod.mk.injEq] at h
          have := Reader.memberName.shorter hname
          have := variant.payload.afterColon.shorter hpayload
          have := expectMark_length hmark
          simp only [← h.2]
          omega

theorem readBare_length {α : Type} {variants : List (String × Variant α)}
    {text rest : List Char} {value : α} (h : readBare variants text = .ok (value, rest)) :
    rest.length ≤ text.length := by
  unfold readBare at h
  split at h
  · simp at h
  · next hname =>
    split at h
    · simp at h
    · simp only [Except.ok.injEq, Prod.mk.injEq] at h
      exact h.2 ▸ Nat.le_of_lt (readLiteral_length hname)
    · simp at h

/-- Reads one of the named variants. -/
def Reader.variant {α : Type} (variants : List (String × Variant α)) : Reader α :=
  ofFirst
    (fun c rest =>
      if c = '"' then readBare variants rest
      else if c = '\x7b' then readTagged variants rest
      else .error .malformed)
    (by
      intro c text value rest h
      split at h
      · exact readBare_length h
      · split at h
        · exact readTagged_length h
        · simp at h)

/-- Values that are written as bare names. -/
def Format.names {α : Type} (values : List α) (name : α → String) : Format α where
  reader := Reader.variant (values.map fun value => (name value, .bare value))
  write value := .str (name value)

end FieldContracts.Json
