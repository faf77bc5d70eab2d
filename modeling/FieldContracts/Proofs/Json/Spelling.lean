import FieldContracts.Json.Reader
import FieldContracts.Json.Value
import Mathlib.Data.List.Forall2
import Mathlib.Data.List.TakeWhile

/-!
# Spellings of a value

`Spelling j text` says that a text spells a value, with any blanks between the marks.  Both ways of
writing a value are spellings of it: `spelling_compactChars` and `spelling_prettyChars`.
-/

namespace FieldContracts.Json

/-- A text of blanks only. -/
def Blank (text : List Char) : Prop := ∀ c ∈ text, isBlank c = true

theorem blank_nil : Blank [] := by simp [Blank]

theorem blank_cons {c : Char} {text : List Char} :
    Blank (c :: text) ↔ isBlank c = true ∧ Blank text := by
  simp [Blank]

theorem blank_newLine (depth : Nat) : Blank (newLine depth) := by
  refine blank_cons.mpr ⟨rfl, fun c hc => ?_⟩
  rw [List.eq_of_mem_replicate hc]
  rfl

theorem skipBlanks_blank {text : List Char} (h : Blank text) : skipBlanks text = [] :=
  List.dropWhile_eq_nil_iff.mpr h

/-- Blanks are skipped up to the first character that is none. -/
theorem skipBlanks_append {blanks : List Char} (h : Blank blanks) {c : Char}
    (hc : isBlank c = false) (rest : List Char) : skipBlanks (blanks ++ c :: rest) = c :: rest := by
  rw [skipBlanks, List.dropWhile_append_of_pos h, List.dropWhile_cons_of_neg (by simp [hc])]

/-! ## The grammar -/

/-- What stands before an item of a list: before the first one blanks, before a later one a comma
among blanks. -/
inductive Separator : Bool → List Char → Prop
  | first {blanks : List Char} (h : Blank blanks) : Separator true blanks
  | later {before after : List Char} (hbefore : Blank before) (hafter : Blank after) :
      Separator false (before ++ ',' :: after)

/-- The items that are left up to the closing mark, each spelled as `Item` says. -/
inductive Enclosed {α : Type} (Item : α → List Char → Prop) (closing : Char) :
    Bool → List α → List Char → Prop
  | close {isFirst : Bool} {blanks : List Char} (h : Blank blanks) :
      Enclosed Item closing isFirst [] (blanks ++ [closing])
  | item {isFirst : Bool} {separator text more : List Char} {a : α} {items : List α}
      (hseparator : Separator isFirst separator) (htext : Item a text)
      (hmore : Enclosed Item closing false items more) :
      Enclosed Item closing isFirst (a :: items) (separator ++ (text ++ more))

mutual

/-- The texts that spell a value, from its first mark to its last. -/
inductive Spelling : Json → List Char → Prop
  | null : Spelling .null ['n', 'u', 'l', 'l']
  | bool_true : Spelling (.bool true) ['t', 'r', 'u', 'e']
  | bool_false : Spelling (.bool false) ['f', 'a', 'l', 's', 'e']
  | nat (n : Nat) : Spelling (.nat n) (Nat.toDigits 10 n)
  | str (s : String) : Spelling (.str s) (literal s)
  | arr {items : List Json} {text : List Char} (h : Enclosed Spelling ']' true items text) :
      Spelling (.arr items) ('[' :: text)
  | obj {members : List (String × Json)} {text : List Char}
      (h : Enclosed MemberSpelling '\x7d' true members text) :
      Spelling (.obj members) ('\x7b' :: text)

/-- The texts that spell a member of an object. -/
inductive MemberSpelling : String × Json → List Char → Prop
  | mk {name : String} {value : Json} {before after text : List Char} (hbefore : Blank before)
      (hafter : Blank after) (htext : Spelling value text) :
      MemberSpelling (name, value) (literal name ++ (before ++ ':' :: (after ++ text)))

end

/-! ## What stands at the ends of a spelling -/

/-- A numeral starts with a digit. -/
theorem exists_toDigits_eq_cons (n : Nat) :
    ∃ c digits, Nat.toDigits 10 n = c :: digits ∧ c.isDigit = true := by
  obtain ⟨c, digits, hdigits⟩ := List.exists_cons_of_ne_nil (Nat.toDigits_ne_nil (n := n) (b := 10))
  have hc : c ∈ Nat.toDigits 10 n := by simp [hdigits]
  exact ⟨c, digits, hdigits, Nat.isDigit_of_mem_toDigits (by decide) (by decide) hc⟩

/-- A value starts with a character that is neither blank nor the end of a list; an `n` starts
`null` only. -/
theorem Spelling.exists_cons {j : Json} {text : List Char} (h : Spelling j text) :
    ∃ c rest, text = c :: rest ∧ isBlank c = false ∧ c ≠ ']' ∧ (c = 'n' → j = .null) := by
  cases h with
  | null => exact ⟨'n', _, rfl, rfl, by decide, fun _ => rfl⟩
  | bool_true => exact ⟨'t', _, rfl, rfl, by decide, by simp⟩
  | bool_false => exact ⟨'f', _, rfl, rfl, by decide, by simp⟩
  | nat n =>
      obtain ⟨c, digits, hdigits, hc⟩ := exists_toDigits_eq_cons n
      have hne : ∀ d : Char, d.isDigit = false → c ≠ d := by
        rintro d hd rfl
        simp [hc] at hd
      refine ⟨c, digits, hdigits, ?_, hne _ rfl, fun hn => absurd hn (hne _ rfl)⟩
      simp [isBlank, hne ' ' rfl, hne '\n' rfl, hne '\t' rfl, hne '\r' rfl]
  | str s => exact ⟨'"', _, rfl, rfl, by decide, by simp⟩
  | arr h => exact ⟨'[', _, rfl, rfl, by decide, by simp⟩
  | obj h => exact ⟨'\x7b', _, rfl, rfl, by decide, by simp⟩

/-- No character at the front of the text would lengthen a numeral before it. -/
def Delimited (text : List Char) : Prop :=
  ∀ c ∈ text.head?, c.isDigit = false ∧ c ≠ '.' ∧ c ≠ 'e' ∧ c ≠ 'E'

theorem delimited_nil : Delimited [] := by simp [Delimited]

theorem delimited_cons {c : Char} {text : List Char} :
    Delimited (c :: text) ↔ c.isDigit = false ∧ c ≠ '.' ∧ c ≠ 'e' ∧ c ≠ 'E' := by
  simp [Delimited]

/-- Blanks end a numeral. -/
theorem Blank.delimited_append {blanks text : List Char} (h : Blank blanks)
    (htext : Delimited text) : Delimited (blanks ++ text) := by
  cases blanks with
  | nil => exact htext
  | cons c blanks =>
      have hc : isBlank c = true := (blank_cons.mp h).1
      simp only [isBlank, Bool.or_eq_true, beq_iff_eq] at hc
      obtain ((rfl | rfl) | rfl) | rfl := hc <;> exact delimited_cons.mpr (by decide)

/-- What follows an item ends a numeral. -/
theorem Enclosed.delimited {α : Type} {Item : α → List Char → Prop} {closing : Char}
    {items : List α} {text : List Char} (h : Enclosed Item closing false items text)
    (hclosing : Delimited [closing]) (rest : List Char) : Delimited (text ++ rest) := by
  cases h with
  | close hblanks =>
      rw [List.append_assoc]
      exact hblanks.delimited_append (delimited_cons.mpr (delimited_cons.mp hclosing))
  | item hseparator =>
      cases hseparator with
      | later hbefore =>
          simp only [List.append_assoc, List.cons_append]
          exact hbefore.delimited_append (delimited_cons.mpr (by decide))

/-! ## Both ways of writing spell the value -/

/-- Blocks behind a first one, each after a comma and the same blanks. -/
theorem exists_enclosed_behind {α : Type} {Item : α → List Char → Prop} {items : List α}
    {blocks : List (List Char)} (h : List.Forall₂ Item items blocks) {gap tail : List Char}
    (hgap : Blank gap) (htail : Blank tail) (closing : Char) :
    ∃ more, Enclosed Item closing false items more ∧ ∀ block,
      commaSeparated ((block :: blocks).map (gap ++ ·)) ++ (tail ++ [closing]) =
        gap ++ (block ++ more) := by
  induction h with
  | nil => exact ⟨tail ++ [closing], .close htail, by simp [commaSeparated]⟩
  | @cons a next items blocks hnext _ ih =>
      obtain ⟨more, hmore, heq⟩ := ih
      refine ⟨([] ++ ',' :: gap) ++ (next ++ more), .item (.later blank_nil hgap) hnext hmore,
        fun block => ?_⟩
      have hcomma : commaSeparated ((block :: next :: blocks).map (gap ++ ·)) =
          (gap ++ block) ++ ',' :: commaSeparated ((next :: blocks).map (gap ++ ·)) := rfl
      rw [hcomma, List.append_assoc, List.cons_append, heq next]
      simp

/-- Blocks that spell the items, with the same blanks before each of them. -/
theorem enclosed_commaSeparated {α : Type} {Item : α → List Char → Prop} {items : List α}
    {blocks : List (List Char)} (h : List.Forall₂ Item items blocks) {gap tail : List Char}
    (hgap : Blank gap) (htail : Blank tail) (closing : Char) :
    Enclosed Item closing true items
      (commaSeparated (blocks.map (gap ++ ·)) ++ (tail ++ [closing])) := by
  cases h with
  | nil => exact .close htail
  | @cons a block items blocks hblock hrest =>
      obtain ⟨more, hmore, heq⟩ := exists_enclosed_behind hrest hgap htail closing
      rw [heq block]
      exact .item (.first hgap) hblock hmore

/-- Without blanks the blocks stand side by side. -/
theorem enclosed_compact {α : Type} {Item : α → List Char → Prop} {items : List α}
    {blocks : List (List Char)} (h : List.Forall₂ Item items blocks) (closing : Char) :
    Enclosed Item closing true items (commaSeparated blocks ++ [closing]) := by
  simpa using enclosed_commaSeparated h blank_nil blank_nil closing

theorem exists_enclosed_bracketed {α : Type} {Item : α → List Char → Prop} {items : List α}
    {blocks : List (List Char)} (h : List.Forall₂ Item items blocks) (opening closing : Char)
    (depth : Nat) :
    ∃ text, bracketed opening closing depth blocks = opening :: text ∧
      Enclosed Item closing true items text := by
  cases h with
  | nil => exact ⟨[closing], rfl, .close blank_nil⟩
  | cons hblock hrest =>
      refine ⟨_, ?_, enclosed_commaSeparated (.cons hblock hrest) (blank_newLine (depth + 1))
        (blank_newLine depth) closing⟩
      rw [bracketed]
      · simp
      · simp

mutual

theorem spelling_compactChars : ∀ j : Json, Spelling j j.compactChars
  | .null => .null
  | .bool true => .bool_true
  | .bool false => .bool_false
  | .nat n => .nat n
  | .str s => .str s
  | .arr items => .arr (enclosed_compact (spellings_compactItems items) ']')
  | .obj members => .obj (enclosed_compact (spellings_compactMembers members) '\x7d')

theorem spellings_compactItems :
    ∀ items : List Json, List.Forall₂ Spelling items (compactItems items)
  | [] => .nil
  | item :: rest => .cons (spelling_compactChars item) (spellings_compactItems rest)

theorem spellings_compactMembers :
    ∀ members : List (String × Json), List.Forall₂ MemberSpelling members (compactMembers members)
  | [] => .nil
  | (_, value) :: rest =>
      .cons (.mk blank_nil blank_nil (spelling_compactChars value)) (spellings_compactMembers rest)

end

mutual

theorem spelling_prettyChars (depth : Nat) : ∀ j : Json, Spelling j (j.prettyChars depth)
  | .null => .null
  | .bool true => .bool_true
  | .bool false => .bool_false
  | .nat n => .nat n
  | .str s => .str s
  | .arr items => by
      obtain ⟨text, htext, h⟩ :=
        exists_enclosed_bracketed (spellings_prettyItems (depth + 1) items) '[' ']' depth
      rw [prettyChars, htext]
      exact .arr h
  | .obj members => by
      obtain ⟨text, htext, h⟩ := exists_enclosed_bracketed
        (spellings_prettyMembers (depth + 1) members) '\x7b' '\x7d' depth
      rw [prettyChars, htext]
      exact .obj h

theorem spellings_prettyItems (depth : Nat) :
    ∀ items : List Json, List.Forall₂ Spelling items (prettyItems depth items)
  | [] => .nil
  | item :: rest => .cons (spelling_prettyChars depth item) (spellings_prettyItems depth rest)

theorem spellings_prettyMembers (depth : Nat) :
    ∀ members : List (String × Json),
      List.Forall₂ MemberSpelling members (prettyMembers depth members)
  | [] => .nil
  | (_, value) :: rest =>
      .cons (.mk blank_nil (blank_cons.mpr ⟨rfl, blank_nil⟩) (spelling_prettyChars depth value))
        (spellings_prettyMembers depth rest)

end

end FieldContracts.Json
