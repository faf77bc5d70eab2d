import FieldContracts.Json.Record
import FieldContracts.Proofs.Json.Reading
import Mathlib.Data.List.Nodup

/-!
# Records read back

`slot.Transfers value before after` says that reading what a field writes of `value` takes the
record read so far from `before` to `after`.  `Layout.lossless` reads a record back if its fields
have different names and, one after the other, take the blank record to the record itself.
-/

namespace FieldContracts.Json

variable {α β : Type}

/-! ## One field -/

/-- Reading what the field writes of `value` takes a record to another; a field that is left out
takes it nowhere, and may be left out only if it is not required. -/
inductive Slot.Transfers (slot : Slot α) (value before : α) : α → Prop
  | written {j : Json} {after : α} (hwrite : slot.write value = some j)
      (hread : (slot.reader before).Reads j after) : Transfers slot value before after
  | omitted (hwrite : slot.write value = none) (hrequired : slot.isRequired = false) :
      Transfers slot value before before

namespace Slot

variable {value before : α} {name : String} {f : Format β}

theorem transfers_required {get : α → β} {set : α → β → α} (h : f.Lossless (get value)) :
    (required name f get set).Transfers value before (set before (get value)) :=
  .written rfl (Reader.Reads.map h (set before))

theorem transfers_defaulted {get : α → β} {set : α → β → α} (h : f.Lossless (get value)) :
    (defaulted name f get set).Transfers value before (set before (get value)) :=
  .written rfl (Reader.Reads.map h (set before))

/-- An absent value is left out, so the record read so far must hold none either. -/
theorem transfers_optional {get : α → Option β} {set : α → Option β → α}
    (h : ∀ x ∈ get value, f.Lossless x ∧ f.write x ≠ .null) (hblank : set before none = before) :
    (optional name f get set).Transfers value before (set before (get value)) := by
  cases hvalue : get value with
  | none =>
      rw [hblank]
      exact .omitted (by simp [optional, hvalue]) rfl
  | some x =>
      obtain ⟨hx, hnull⟩ := h x (by simp [hvalue])
      have hread := Reader.Reads.map (hx.optional hnull) (set before)
      exact .written (by simp [optional, hvalue]) hread

end Slot

/-! ## Members among the text -/

theorem nextMember_close {blanks : List Char} (hblanks : Blank blanks) (isFirst : Bool)
    (rest : List Char) : nextMember isFirst (blanks ++ '\x7d' :: rest) = .ok (.close rest) := by
  simp [nextMember, skipBlanks_append hblanks (c := '\x7d') rfl]

theorem readName_literal {blanks : List Char} (hblanks : Blank blanks) (name : String)
    (rest : List Char) : readName (blanks ++ (literal name ++ rest)) = .ok (.member name rest) := by
  simp only [readName, memberName_run hblanks]

theorem nextMember_member {isFirst : Bool} {separator : List Char}
    (h : Separator isFirst separator) (name : String) (rest : List Char) :
    nextMember isFirst (separator ++ (literal name ++ rest)) = .ok (.member name rest) := by
  cases h with
  | first hblanks =>
      have hname := readName_literal blank_nil name rest
      rw [List.nil_append, literal_append] at hname
      simp [nextMember, literal_append, skipBlanks_append hblanks (c := '"') rfl, hname]
  | later hbefore hafter =>
      rw [List.append_assoc, List.cons_append]
      simp [nextMember, skipBlanks_append hbefore (c := ',') rfl, readName_literal hafter]

/-! ## All fields -/

namespace Layout

variable {layout : Layout α}

/-- The fields, one after the other, take a record to another. -/
inductive Transfer (value : α) : List (Slot α) → α → α → Prop
  | nil {record : α} : Transfer value [] record record
  | cons {slot : Slot α} {slots : List (Slot α)} {before between after : α}
      (hslot : slot.Transfers value before between) (hslots : Transfer value slots between after) :
      Transfer value (slot :: slots) before after

/-- The members that some of the fields are written as. -/
def membersOf (slots : List (Slot α)) (value : α) : List (String × Json) :=
  slots.filterMap fun slot => (slot.write value).map fun j => (slot.name, j)

theorem lookup_membersOf_eq_none {slots : List (Slot α)} {name : String}
    (h : name ∉ slots.map Slot.name) (value : α) : (membersOf slots value).lookup name = none := by
  rw [List.lookup_eq_none_iff]
  intro member hmember
  obtain ⟨slot, hslot, hwrite⟩ := List.mem_filterMap.mp hmember
  obtain ⟨j, _, rfl⟩ := Option.map_eq_some_iff.mp hwrite
  rw [bne_iff_ne]
  rintro rfl
  exact h (List.mem_map_of_mem hslot)

/-- The member under the name of a field is what the field writes, absent if it is left out. -/
theorem lookup_membersOf {slots : List (Slot α)} (hnames : (slots.map Slot.name).Nodup)
    {slot : Slot α} (h : slot ∈ slots) (value : α) :
    (membersOf slots value).lookup slot.name = slot.write value := by
  induction slots with
  | nil => simp at h
  | cons first slots ih =>
      rw [List.map_cons, List.nodup_cons] at hnames
      rcases List.mem_cons.mp h with rfl | hlater
      · cases hwrite : slot.write value with
        | none => simpa [membersOf, hwrite] using lookup_membersOf_eq_none hnames.1 value
        | some j => simp [membersOf, hwrite]
      · have hne : slot.name ≠ first.name := fun heq =>
          hnames.1 (heq ▸ List.mem_map_of_mem hlater)
        have hlookup := ih hnames.2 hlater
        cases hwrite : first.write value with
        | none => simpa [membersOf, hwrite] using hlookup
        | some j =>
            have hbeq : (slot.name == first.name) = false := beq_eq_false_iff_ne.mpr hne
            simpa [membersOf, hwrite, List.lookup_cons, hbeq] using hlookup

theorem slot?_eq_some (hnames : (layout.slots.map Slot.name).Nodup) {slot : Slot α}
    (h : slot ∈ layout.slots) : layout.slot? slot.name = some slot := by
  have hsome : (layout.slot? slot.name).isSome := by
    rw [slot?, List.find?_isSome]
    exact ⟨slot, h, beq_self_eq_true _⟩
  obtain ⟨found, hfound⟩ := Option.isSome_iff_exists.mp hsome
  have hname : found.name = slot.name := by simpa using List.find?_some hfound
  have heq : found = slot :=
    List.inj_on_of_nodup_map hnames (List.mem_of_find?_eq_some hfound) h hname
  rw [hfound, heq]

/-- Nothing is missing once each required field has been read. -/
theorem missing?_eq_none {seen : List String}
    (h : ∀ slot ∈ layout.slots, slot.isRequired = true → slot.name ∈ seen) :
    layout.missing? seen = none := by
  rw [missing?, List.find?_eq_none]
  intro slot hslot hmissing
  simp only [Bool.and_eq_true, Bool.not_eq_true', List.contains_eq_mem, decide_eq_false_iff_not]
    at hmissing
  exact hmissing.2 (h slot hslot hmissing.1)

theorem readMembers_close {seen : List String} {isFirst : Bool} {record : α}
    {text rest : List Char} (hnext : nextMember isFirst text = .ok (.close rest))
    (hmissing : layout.missing? seen = none) :
    layout.readMembers seen isFirst record text = .ok (record, rest) := by
  rw [readMembers]
  split
  · next heq => simp [hnext] at heq
  · next heq =>
      obtain rfl : rest = _ := by simpa [hnext] using heq
      rw [hmissing]
  · next heq => simp [hnext] at heq

theorem readMembers_member {seen : List String} {isFirst : Bool} {record extended : α}
    {text behind rest : List Char} {slot : Slot α}
    (hnext : nextMember isFirst text = .ok (.member slot.name behind))
    (hslot : layout.slot? slot.name = some slot) (hfresh : slot.name ∉ seen)
    (hread : (slot.reader record).afterColon.run behind = .ok (extended, rest)) :
    layout.readMembers seen isFirst record text =
      layout.readMembers (slot.name :: seen) false extended rest := by
  rw [readMembers]
  split
  · next heq => simp [hnext] at heq
  · next heq => simp [hnext] at heq
  · next heq =>
      obtain ⟨rfl, rfl⟩ : slot.name = _ ∧ behind = _ := by simpa [hnext] using heq
      split
      · next heq => simp [hslot] at heq
      · next heq =>
          obtain rfl : slot = _ := by simpa [hslot] using heq
          rw [if_neg (by simpa using hfresh)]
          split
          · next heq => simp [hread] at heq
          · next heq =>
              obtain ⟨rfl, rfl⟩ : extended = _ ∧ rest = _ := by simpa [hread] using heq
              rfl

/-- The names seen are those of fields among `done`, all required ones included. -/
structure Covers (seen : List String) (done : List (Slot α)) : Prop where
  named : ∀ name ∈ seen, ∃ slot ∈ done, slot.name = name
  required : ∀ slot ∈ done, slot.isRequired = true → slot.name ∈ seen

theorem Covers.omit {seen : List String} {done : List (Slot α)} {slot : Slot α}
    (h : Covers seen done) (hrequired : slot.isRequired = false) :
    Covers seen (done ++ [slot]) where
  named name hname := by
    obtain ⟨other, hother, heq⟩ := h.named name hname
    exact ⟨other, List.mem_append_left _ hother, heq⟩
  required other hother hreq := by
    rcases List.mem_append.mp hother with hother | hother
    · exact h.required other hother hreq
    · rw [List.mem_singleton.mp hother, hrequired] at hreq
      exact absurd hreq (by decide)

theorem Covers.read {seen : List String} {done : List (Slot α)} (h : Covers seen done)
    (slot : Slot α) : Covers (slot.name :: seen) (done ++ [slot]) where
  named name hname := by
    rcases List.mem_cons.mp hname with rfl | hname
    · exact ⟨slot, by simp, rfl⟩
    · obtain ⟨other, hother, heq⟩ := h.named name hname
      exact ⟨other, List.mem_append_left _ hother, heq⟩
  required other hother hreq := by
    rcases List.mem_append.mp hother with hother | hother
    · exact List.mem_cons_of_mem _ (h.required other hother hreq)
    · rw [List.mem_singleton.mp hother]
      exact List.mem_cons_self

/-- A field behind those covered has not been seen. -/
theorem Covers.fresh {seen : List String} {done slots : List (Slot α)} {slot : Slot α}
    (h : Covers seen done) (hnames : ((done ++ slot :: slots).map Slot.name).Nodup) :
    slot.name ∉ seen := by
  intro hname
  obtain ⟨other, hother, heq⟩ := h.named slot.name hname
  rw [List.map_append, List.nodup_append] at hnames
  exact hnames.2.2 _ (List.mem_map_of_mem hother) _ (by simp) heq

/-- The members of the fields that are left are read into the record; the induction is on these
fields, and the names seen cover the fields before them. -/
theorem readMembers_enclosed (hnames : (layout.slots.map Slot.name).Nodup) {value : α}
    {done slots : List (Slot α)} {before after : α} (hsplit : layout.slots = done ++ slots)
    (h : Transfer value slots before after) {seen : List String} (hseen : Covers seen done)
    {isFirst : Bool} {text : List Char}
    (htext : Enclosed MemberSpelling '\x7d' isFirst (membersOf slots value) text)
    (rest : List Char) :
    layout.readMembers seen isFirst before (text ++ rest) = .ok (after, rest) := by
  induction h generalizing done seen isFirst text with
  | nil =>
      rw [List.append_nil] at hsplit
      cases htext with
      | close hblanks =>
          rw [List.append_assoc]
          exact readMembers_close (nextMember_close hblanks isFirst rest)
            (missing?_eq_none (by rw [hsplit]; exact hseen.required))
  | @cons slot slots before between after hslot _ ih =>
      have hsplit' : layout.slots = (done ++ [slot]) ++ slots := by simpa using hsplit
      cases hslot with
      | omitted hwrite hrequired =>
          -- The text holds nothing of the field, and the record stays as it is.
          exact ih hsplit' (hseen.omit hrequired) (by simpa [membersOf, hwrite] using htext)
      | @written j _ hwrite hread =>
          have hmembers : membersOf (slot :: slots) value =
              (slot.name, j) :: membersOf slots value := by
            simp [membersOf, hwrite]
          rw [hmembers] at htext
          obtain _ | @⟨_, separator, _, more, _, _, hseparator, hmember, hmore⟩ := htext
          obtain @⟨_, _, colonBefore, colonAfter, text, hbefore, hafter, hvalue⟩ := hmember
          have hdelimited : Delimited (more ++ rest) :=
            hmore.delimited (delimited_cons.mpr (by decide)) rest
          have hslot : layout.slot? slot.name = some slot :=
            slot?_eq_some hnames (by simp [hsplit])
          have hfresh : slot.name ∉ seen := hseen.fresh (by rwa [← hsplit])
          simp only [List.append_assoc, List.cons_append]
          rw [readMembers_member (nextMember_member hseparator slot.name _) hslot hfresh
            (hread.afterColon hbefore hafter hvalue hdelimited)]
          exact ih hsplit' (hseen.read slot) hmore

/-- A record is read back from the object that it is written as. -/
theorem lossless {value : α} (hnames : (layout.slots.map Slot.name).Nodup)
    (h : Transfer value layout.slots layout.blank value) : layout.format.Lossless value := by
  intro blanks text rest hblanks htext _
  obtain _ | _ | _ | _ | _ | _ | @⟨_, text, hmembers⟩ := htext
  have hseen : Covers [] ([] : List (Slot α)) := ⟨by simp, by simp⟩
  have hread := readMembers_enclosed hnames (List.nil_append _).symm h hseen hmembers rest
  rw [List.cons_append]
  change layout.reader.run _ = _
  rw [Layout.reader, Reader.ofFirst_run hblanks rfl, if_neg (by decide), if_pos rfl]
  exact hread

end Layout

end FieldContracts.Json
