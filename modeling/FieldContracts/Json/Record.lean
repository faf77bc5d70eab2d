import FieldContracts.Json.Format
import FieldContracts.Json.Skip

/-!
# Records

A record is written as an object, and read from an object or from an array that lists its fields in
order.  Members of other names are skipped.  Reading starts from a blank record and sets one field
after the other; a field that is required must be set, and no field may be set twice.
-/

namespace FieldContracts.Json

/-- One field of a record: its name, how it is read into a record, and how it is written unless it
is left out. -/
structure Slot (α : Type) where
  name : String
  isRequired : Bool
  reader : α → Reader α
  write : α → Option Json

namespace Slot

variable {α β : Type}

/-- A field that must be present. -/
def required (name : String) (f : Format β) (get : α → β) (set : α → β → α) : Slot α where
  name := name
  isRequired := true
  reader record := f.reader.map (set record)
  write record := some (f.write (get record))

/-- A field that keeps its blank value when it is absent. -/
def defaulted (name : String) (f : Format β) (get : α → β) (set : α → β → α) : Slot α :=
  { required name f get set with isRequired := false }

/-- A field that is left out when it has no value, and then is read as absent or as `null`. -/
def optional (name : String) (f : Format β) (get : α → Option β)
    (set : α → Option β → α) : Slot α where
  name := name
  isRequired := false
  reader record := f.reader.optional.map (set record)
  write record := (get record).map f.write

end Slot

/-- The fields of a record type in order of declaration, and the record that reading starts from. -/
structure Layout (α : Type) where
  typeName : String
  blank : α
  slots : List (Slot α)

/-- How an object goes on. -/
inductive ObjectStep where
  /-- A member of this name follows; its colon is the next mark of the text. -/
  | member (name : String) (text : List Char)
  /-- The object has ended before this text. -/
  | close (rest : List Char)

/-- Reads the name of a member. -/
def readName (text : List Char) : Except ReadError ObjectStep :=
  match Reader.memberName.run text with
  | .error e => .error e
  | .ok (name, rest) => .ok (.member name rest)

/-- Looks for the next member of an object; a comma must stand before every member but the
first. -/
def nextMember (isFirst : Bool) (text : List Char) : Except ReadError ObjectStep :=
  match skipBlanks text with
  | [] => .error .endsEarly
  | c :: rest =>
      if c = '\x7d' then .ok (.close rest)
      else if isFirst then readName (c :: rest)
      else if c = ',' then readName rest
      else .error .malformed

theorem readName_length {text rest : List Char} {name : String}
    (h : readName text = .ok (.member name rest)) : rest.length < text.length := by
  unfold readName at h
  split at h
  · simp at h
  · next hname =>
    simp only [Except.ok.injEq, ObjectStep.member.injEq] at h
    exact h.2 ▸ Reader.memberName.shorter hname

theorem readName_ne_close {text rest : List Char} : readName text ≠ .ok (.close rest) := by
  intro h
  unfold readName at h
  split at h <;> simp at h

theorem nextMember_close_length {isFirst : Bool} {text rest : List Char}
    (h : nextMember isFirst text = .ok (.close rest)) : rest.length < text.length := by
  unfold nextMember at h
  split at h
  · simp at h
  · next hblanks =>
    split at h
    · simp only [Except.ok.injEq, ObjectStep.close.injEq] at h
      exact h ▸ length_lt_of_skipBlanks hblanks
    · split at h
      · exact absurd h readName_ne_close
      · split at h
        · exact absurd h readName_ne_close
        · simp at h

theorem nextMember_member_length {isFirst : Bool} {text rest : List Char} {name : String}
    (h : nextMember isFirst text = .ok (.member name rest)) : rest.length < text.length := by
  unfold nextMember at h
  split at h
  · simp at h
  · next c tail hblanks =>
    have htail := length_lt_of_skipBlanks hblanks
    split at h
    · simp at h
    · split at h
      · have := readName_length h
        simp only [List.length_cons] at this
        omega
      · split at h
        · exact Nat.lt_trans (readName_length h) htail
        · simp at h

namespace Layout

variable {α : Type}

def slot? (layout : Layout α) (name : String) : Option (Slot α) :=
  layout.slots.find? (·.name == name)

/-- The first required field that has not been set. -/
def missing? (layout : Layout α) (seen : List String) : Option (Slot α) :=
  layout.slots.find? fun slot => slot.isRequired && !seen.contains slot.name

/-- Reads the members of an object into a record of which the fields of `seen` are set. -/
def readMembers (layout : Layout α) (seen : List String) (isFirst : Bool) (record : α)
    (text : List Char) : Except ReadError (α × List Char) :=
  match _hstep : nextMember isFirst text with
  | .error e => .error e
  | .ok (.close rest) =>
      match layout.missing? seen with
      | some slot => .error (.unfitting (.missingField slot.name))
      | none => .ok (record, rest)
  | .ok (.member name behind) =>
      match layout.slot? name with
      | none =>
          match _hskip : skipValue.afterColon.run behind with
          | .error e => .error e
          | .ok (_, rest) => layout.readMembers seen false record rest
      | some slot =>
          -- A repeated field is refused before its value is looked at.
          if seen.contains name then .error (.unfitting (.duplicateField name))
          else
            match _hread : (slot.reader record).afterColon.run behind with
            | .error e => .error e
            | .ok (extended, rest) => layout.readMembers (name :: seen) false extended rest
termination_by text.length
decreasing_by
  · exact Nat.lt_trans (skipValue.afterColon.shorter _hskip) (nextMember_member_length _hstep)
  · exact Nat.lt_trans ((slot.reader record).afterColon.shorter _hread)
      (nextMember_member_length _hstep)

theorem readMembers_length {layout : Layout α} {seen : List String} {isFirst : Bool}
    {record value : α} {text rest : List Char}
    (h : layout.readMembers seen isFirst record text = .ok (value, rest)) :
    rest.length < text.length := by
  fun_induction layout.readMembers seen isFirst record text with
  | case1 => simp at h
  | case2 => simp at h
  | case3 seen isFirst record text rest' hstep hmissing =>
    simp only [Except.ok.injEq, Prod.mk.injEq] at h
    exact h.2 ▸ nextMember_close_length hstep
  | case4 => simp at h
  | case5 seen isFirst record text name behind hstep hslot value' rest' hskip ih =>
    exact Nat.lt_trans (ih h) (Nat.lt_trans (skipValue.afterColon.shorter hskip)
      (nextMember_member_length hstep))
  | case6 => simp at h
  | case7 => simp at h
  | case8 seen isFirst record text name behind hstep slot hslot hseen extended rest' hread ih =>
    exact Nat.lt_trans (ih h) (Nat.lt_trans ((slot.reader record).afterColon.shorter hread)
      (nextMember_member_length hstep))

/-- Reads the elements of an array into the remaining fields of a record, of which the first has
the given index.  The array may end early if none of the fields left is required. -/
def readElements (layout : Layout α) (slots : List (Slot α)) (index : Nat) (record : α)
    (text : List Char) : Except ReadError (α × List Char) :=
  match slots with
  | [] => (expectMark ']' text).map fun rest => (record, rest)
  | slot :: later =>
      match nextItem (index == 0) text with
      | .error e => .error e
      | .ok (.close rest) =>
          -- The bracket ends all fields that are left, so the first required one is missing.
          match (slot :: later).findIdx? (·.isRequired) with
          | some offset =>
              .error (.unfitting (.tooShort (index + offset) layout.typeName layout.slots.length))
          | none => .ok (record, rest)
      | .ok (.item item) =>
          match (slot.reader record).run item with
          | .error e => .error e
          | .ok (extended, rest) => layout.readElements later (index + 1) extended rest

theorem readElements_length {layout : Layout α} {slots : List (Slot α)} {index : Nat}
    {record value : α} {text rest : List Char}
    (h : layout.readElements slots index record text = .ok (value, rest)) :
    rest.length < text.length := by
  induction slots generalizing index record text with
  | nil =>
    cases hmark : expectMark ']' text with
    | error e => simp [readElements, hmark, Except.map] at h
    | ok behind =>
      simp only [readElements, hmark, Except.map, Except.ok.injEq, Prod.mk.injEq] at h
      exact h.2 ▸ expectMark_length hmark
  | cons slot later ih =>
    unfold readElements at h
    split at h
    · simp at h
    · next hstep =>
      split at h
      · simp at h
      · simp only [Except.ok.injEq, Prod.mk.injEq] at h
        exact h.2 ▸ nextItem_close_length hstep
    · next hstep =>
      split at h
      · simp at h
      · next hitem =>
        exact Nat.lt_trans (ih h)
          (Nat.lt_of_lt_of_le ((slot.reader record).shorter hitem) (nextItem_item_length hstep))

def reader (layout : Layout α) : Reader α :=
  Reader.ofFirst
    (fun c rest =>
      if c = '[' then layout.readElements layout.slots 0 layout.blank rest
      else if c = '\x7b' then layout.readMembers [] true layout.blank rest
      else .error (wrongValue ("struct " ++ layout.typeName) c rest))
    (by
      intro c text value rest h
      split at h
      · exact Nat.le_of_lt (readElements_length h)
      · split at h
        · exact Nat.le_of_lt (readMembers_length h)
        · simp at h)

/-- The members of the object that a record is written as. -/
def members (layout : Layout α) (record : α) : List (String × Json) :=
  layout.slots.filterMap fun slot => (slot.write record).map fun value => (slot.name, value)

def format (layout : Layout α) : Format α :=
  ⟨layout.reader, fun record => .obj (layout.members record)⟩

end Layout

end FieldContracts.Json
