import FieldContracts.Json.Literal
import FieldContracts.Json.Numeral

/-!
# Readers

A `Reader` reads one value from the front of a text, blanks before it included, and always takes
something of the text; so a loop of readers ends with the text.  The text is read from left to
right and the first fault ends it.
-/

namespace FieldContracts.Json

/-- Reads a value from the front of a text and gives the text behind it, which is shorter. -/
structure Reader (α : Type) where
  run : List Char → Except ReadError (α × List Char)
  shorter : ∀ {text : List Char} {value : α} {rest : List Char},
    run text = .ok (value, rest) → rest.length < text.length

/-- A blank may stand before and after every value and mark. -/
def isBlank (c : Char) : Bool := c == ' ' || c == '\n' || c == '\t' || c == '\r'

def skipBlanks (text : List Char) : List Char := text.dropWhile isBlank

theorem skipBlanks_length (text : List Char) : (skipBlanks text).length ≤ text.length :=
  (List.dropWhile_suffix _).length_le

theorem length_lt_of_skipBlanks {text rest : List Char} {c : Char}
    (h : skipBlanks text = c :: rest) : rest.length < text.length := by
  have := skipBlanks_length text
  rw [h] at this
  exact this

/-- The text must start with the given characters. -/
def expectChars : List Char → List Char → Except ReadError (List Char)
  | [], text => .ok text
  | _ :: _, [] => .error .endsEarly
  | e :: expected, c :: rest =>
      if c = e then expectChars expected rest else .error .malformed

theorem expectChars_length {expected text rest : List Char}
    (h : expectChars expected text = .ok rest) : rest.length ≤ text.length := by
  fun_induction expectChars expected text with
  | case1 => simp_all
  | case2 => simp at h
  | case3 e expected text ih => exact Nat.le_succ_of_le (ih h)
  | case4 => simp at h

/-- A mark must follow, with blanks before it. -/
def expectMark (mark : Char) (text : List Char) : Except ReadError (List Char) :=
  match skipBlanks text with
  | [] => .error .endsEarly
  | c :: rest => if c = mark then .ok rest else .error .malformed

theorem expectMark_length {mark : Char} {text rest : List Char}
    (h : expectMark mark text = .ok rest) : rest.length < text.length := by
  unfold expectMark at h
  split at h
  · simp at h
  · next hblanks =>
    split at h
    · simp only [Except.ok.injEq] at h
      exact h ▸ length_lt_of_skipBlanks hblanks
    · simp at h

/-- Why a value that starts with `c` is not what is expected.  A literal or a number is read to its
end, and a fault in it is reported first. -/
def wrongValue (expected : String) (c : Char) (rest : List Char) : ReadError :=
  let found (what : Found) : ReadError := .unfitting (.wrongType what expected)
  let word (letters : List Char) (what : Found) : ReadError :=
    match expectChars letters rest with
    | .ok _ => found what
    | .error e => e
  if c = 'n' then word ['u', 'l', 'l'] .null
  else if c = 't' then word ['r', 'u', 'e'] (.boolean true)
  else if c = 'f' then word ['a', 'l', 's', 'e'] (.boolean false)
  else if c = '-' || c.isDigit then
    match readNumber (c :: rest) with
    | .ok (.integer n, _) => found (.integer n)
    | .ok (.floating x, _) => found (.floating x)
    | .error e => e
  else if c = '"' then
    match readLiteral rest with
    | .ok (s, _) => found (.text s)
    | .error e => e
  else if c = '[' then found .sequence
  else if c = '\x7b' then found .map
  else .malformed

namespace Reader

variable {α β : Type}

/-- A reader that decides by the first character behind the blanks. -/
def ofFirst (f : Char → List Char → Except ReadError (α × List Char))
    (hf : ∀ {c : Char} {text : List Char} {value : α} {rest : List Char},
      f c text = .ok (value, rest) → rest.length ≤ text.length) : Reader α where
  run text :=
    match skipBlanks text with
    | [] => .error .endsEarly
    | c :: rest => f c rest
  shorter {text value rest} h := by
    split at h
    · simp at h
    · next hblanks => exact Nat.lt_of_le_of_lt (hf h) (length_lt_of_skipBlanks hblanks)

def map (f : α → β) (r : Reader α) : Reader β where
  run text :=
    match r.run text with
    | .ok (value, rest) => .ok (f value, rest)
    | .error e => .error e
  shorter {text value rest} h := by
    split at h
    · next hrun =>
      simp only [Except.ok.injEq, Prod.mk.injEq] at h
      exact h.2 ▸ r.shorter hrun
    · simp at h

/-- Reads what follows a colon. -/
def afterColon (r : Reader α) : Reader α where
  run text :=
    match expectMark ':' text with
    | .ok rest => r.run rest
    | .error e => .error e
  shorter {text value rest} h := by
    split at h
    · next hcolon => exact Nat.lt_trans (r.shorter h) (expectMark_length hcolon)
    · simp at h

def text : Reader String :=
  ofFirst
    (fun c rest =>
      if c = '"' then readLiteral rest else .error (wrongValue "a string" c rest))
    (by
      intro c text value rest h
      split at h
      · exact Nat.le_of_lt (readLiteral_length h)
      · simp at h)

/-- Reads the name of a member of an object.  Nothing but a string can stand there, so anything
else is a fault of the text and not a value of the wrong type. -/
def memberName : Reader String :=
  ofFirst
    (fun c rest => if c = '"' then readLiteral rest else .error .malformed)
    (by
      intro c text value rest h
      split at h
      · exact Nat.le_of_lt (readLiteral_length h)
      · simp at h)

/-- Reads the letters of a word that stands for a value. -/
private def word (letters : List Char) (value : α) (text : List Char) :
    Except ReadError (α × List Char) :=
  match expectChars letters text with
  | .ok rest => .ok (value, rest)
  | .error e => .error e

private theorem word_length {letters text rest : List Char} {value found : α}
    (h : word letters value text = .ok (found, rest)) : rest.length ≤ text.length := by
  unfold word at h
  split at h
  · next hchars =>
    simp only [Except.ok.injEq, Prod.mk.injEq] at h
    exact h.2 ▸ expectChars_length hchars
  · simp at h

def flag : Reader Bool :=
  ofFirst
    (fun c rest =>
      if c = 't' then word ['r', 'u', 'e'] true rest
      else if c = 'f' then word ['a', 'l', 's', 'e'] false rest
      else .error (wrongValue "a boolean" c rest))
    (by
      intro c text value rest h
      split at h
      · exact word_length h
      · split at h
        · exact word_length h
        · simp at h)

/-- Reads `null`, which stands for a value of its own. -/
def null (expected : String) (value : α) : Reader α :=
  ofFirst
    (fun c rest =>
      if c = 'n' then word ['u', 'l', 'l'] value rest
      else .error (wrongValue expected c rest))
    (by
      intro c text value rest h
      split at h
      · exact word_length h
      · simp at h)

/-- Reads an index of at most 32 bits. -/
def index : Reader Nat :=
  ofFirst
    (fun c rest =>
      if c = '-' || c.isDigit then
        match readNumber (c :: rest) with
        | .ok (.integer n, rest) =>
            if 0 ≤ n && n < Int.pow 2 32 then .ok (n.toNat, rest)
            else .error (.unfitting (.outOfRange n "u32"))
        | .ok (.floating x, _) => .error (.unfitting (.wrongType (.floating x) "u32"))
        | .error e => .error e
      else .error (wrongValue "u32" c rest))
    (by
      intro c text value rest h
      split at h
      · split at h
        · next hnumber =>
          split at h
          · simp only [Except.ok.injEq, Prod.mk.injEq] at h
            exact h.2 ▸ Nat.le_of_lt_succ (readNumber_length hnumber)
          · simp at h
        · simp at h
        · simp at h
      · simp at h)

/-- Reads `null` as the absence of a value. -/
def optional (r : Reader α) : Reader (Option α) :=
  ofFirst
    (fun c rest =>
      if c = 'n' then word ['u', 'l', 'l'] none rest
      else (r.map some).run (c :: rest))
    (by
      intro c text value rest h
      split at h
      · exact word_length h
      · exact Nat.le_of_lt_succ ((r.map some).shorter h))

end Reader

/-- How a list goes on. -/
inductive ListStep where
  /-- An item follows at the front of this text. -/
  | item (text : List Char)
  /-- The list has ended before this text. -/
  | close (rest : List Char)

/-- Looks for the next item of a list; a comma must stand before every item but the first. -/
def nextItem (isFirst : Bool) (text : List Char) : Except ReadError ListStep :=
  match skipBlanks text with
  | [] => .error .endsEarly
  | c :: rest =>
      if c = ']' then .ok (.close rest)
      else if isFirst then .ok (.item (c :: rest))
      else if c = ',' then
        match skipBlanks rest with
        | [] => .error .endsEarly
        | d :: more => if d = ']' then .error .malformed else .ok (.item (d :: more))
      else .error .malformed

theorem nextItem_close_length {isFirst : Bool} {text rest : List Char}
    (h : nextItem isFirst text = .ok (.close rest)) : rest.length < text.length := by
  unfold nextItem at h
  split at h
  · simp at h
  · next hblanks =>
    split at h
    · simp only [Except.ok.injEq, ListStep.close.injEq] at h
      exact h ▸ length_lt_of_skipBlanks hblanks
    · split at h
      · simp at h
      · split at h
        · split at h
          · simp at h
          · split at h <;> simp at h
        · simp at h

theorem nextItem_item_length {isFirst : Bool} {text item : List Char}
    (h : nextItem isFirst text = .ok (.item item)) : item.length ≤ text.length := by
  unfold nextItem at h
  split at h
  · simp at h
  · next hblanks =>
    split at h
    · simp at h
    · split at h
      · simp only [Except.ok.injEq, ListStep.item.injEq] at h
        rw [← h]
        exact length_lt_of_skipBlanks hblanks
      · split at h
        · split at h
          · simp at h
          · next hmore =>
            split at h
            · simp at h
            · simp only [Except.ok.injEq, ListStep.item.injEq] at h
              rw [← h]
              exact Nat.le_of_lt (Nat.lt_of_le_of_lt (length_lt_of_skipBlanks hmore)
                (length_lt_of_skipBlanks hblanks))
        · simp at h

/-- Reads the items of a list behind those of `before`, which stand in reverse. -/
def readItems {α : Type} (r : Reader α) (before : List α) (text : List Char) :
    Except ReadError (List α × List Char) :=
  match _hstep : nextItem before.isEmpty text with
  | .error e => .error e
  | .ok (.close rest) => .ok (before.reverse, rest)
  | .ok (.item item) =>
      match _hitem : r.run item with
      | .error e => .error e
      | .ok (value, rest) => readItems r (value :: before) rest
termination_by text.length
decreasing_by exact Nat.lt_of_lt_of_le (r.shorter _hitem) (nextItem_item_length _hstep)

theorem readItems_length {α : Type} {r : Reader α} {before values : List α}
    {text rest : List Char} (h : readItems r before text = .ok (values, rest)) :
    rest.length < text.length := by
  fun_induction readItems r before text with
  | case1 => simp at h
  | case2 before text rest' hstep =>
    simp only [Except.ok.injEq, Prod.mk.injEq] at h
    exact h.2 ▸ nextItem_close_length hstep
  | case3 => simp at h
  | case4 before text item hstep value rest' hitem ih =>
    exact Nat.lt_trans (ih h) (Nat.lt_of_lt_of_le (r.shorter hitem) (nextItem_item_length hstep))

/-- Reads a list of any length. -/
def Reader.list {α : Type} (r : Reader α) : Reader (List α) :=
  ofFirst
    (fun c rest =>
      if c = '[' then readItems r [] rest else .error (wrongValue "a sequence" c rest))
    (by
      intro c text value rest h
      split at h
      · exact Nat.le_of_lt (readItems_length h)
      · simp at h)

/-- Reads a text that holds one value and blanks around it. -/
def Reader.whole {α : Type} (r : Reader α) (text : List Char) : Except ReadError α :=
  match r.run text with
  | .error e => .error e
  | .ok (value, rest) =>
      match skipBlanks rest with
      | [] => .ok value
      | _ => .error .malformed

end FieldContracts.Json
