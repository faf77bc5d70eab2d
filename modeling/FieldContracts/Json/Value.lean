/-!
# JSON values and their text

Values as this library writes them: numbers are natural, and the members of an object keep their
order.  `Json.compact` writes no blanks; `Json.pretty` gives each item a line of its own.
-/

namespace FieldContracts

inductive Json where
  | null
  | bool (b : Bool)
  | nat (n : Nat)
  | str (s : String)
  | arr (items : List Json)
  | obj (members : List (String × Json))

namespace Json

/-- How a string literal spells one character: quotes, backslashes and control characters are
escaped, all others stand as they are. -/
def escaped (c : Char) : List Char :=
  match c with
  | '"' => ['\\', '"']
  | '\\' => ['\\', '\\']
  | '\x08' => ['\\', 'b']
  | '\t' => ['\\', 't']
  | '\n' => ['\\', 'n']
  | '\x0c' => ['\\', 'f']
  | '\r' => ['\\', 'r']
  | c =>
      if c.toNat < 0x20 then
        ['\\', 'u', '0', '0', Nat.digitChar (c.toNat / 16), Nat.digitChar (c.toNat % 16)]
      else [c]

/-- The string literal that denotes a text. -/
def literal (s : String) : List Char := '"' :: (s.toList.flatMap escaped ++ ['"'])

/-- The items with a comma between each two. -/
def commaSeparated : List (List Char) → List Char
  | [] => []
  | [item] => item
  | item :: rest => item ++ ',' :: commaSeparated rest

mutual

/-- The text of a value, without blanks. -/
def compactChars : Json → List Char
  | .null => ['n', 'u', 'l', 'l']
  | .bool true => ['t', 'r', 'u', 'e']
  | .bool false => ['f', 'a', 'l', 's', 'e']
  | .nat n => Nat.toDigits 10 n
  | .str s => literal s
  | .arr items => '[' :: (commaSeparated (compactItems items) ++ [']'])
  | .obj members => '\x7b' :: (commaSeparated (compactMembers members) ++ ['\x7d'])

def compactItems : List Json → List (List Char)
  | [] => []
  | item :: rest => compactChars item :: compactItems rest

def compactMembers : List (String × Json) → List (List Char)
  | [] => []
  | (name, value) :: rest => (literal name ++ ':' :: compactChars value) :: compactMembers rest

end

/-- The text of a value, without blanks. -/
def compact (j : Json) : String := String.ofList j.compactChars

/-- A line end and the indentation of the line that follows. -/
def newLine (depth : Nat) : List Char := '\n' :: List.replicate (2 * depth) ' '

/-- The blocks between brackets, each on a line of its own; nothing stands between the brackets if
there are no blocks. -/
def bracketed (opening closing : Char) (depth : Nat) : List (List Char) → List Char
  | [] => [opening, closing]
  | blocks =>
      opening :: (commaSeparated (blocks.map (newLine (depth + 1) ++ ·)) ++
        newLine depth ++ [closing])

mutual

/-- The text of a value that starts on a line of the given depth. -/
def prettyChars (depth : Nat) : Json → List Char
  | .arr items => bracketed '[' ']' depth (prettyItems (depth + 1) items)
  | .obj members => bracketed '\x7b' '\x7d' depth (prettyMembers (depth + 1) members)
  | .null => compactChars .null
  | .bool b => compactChars (.bool b)
  | .nat n => compactChars (.nat n)
  | .str s => compactChars (.str s)

def prettyItems (depth : Nat) : List Json → List (List Char)
  | [] => []
  | item :: rest => prettyChars depth item :: prettyItems depth rest

def prettyMembers (depth : Nat) : List (String × Json) → List (List Char)
  | [] => []
  | (name, value) :: rest =>
      (literal name ++ ':' :: ' ' :: prettyChars depth value) :: prettyMembers depth rest

end

/-- The text of a value on several lines, indented by two blanks for each level. -/
def pretty (j : Json) : String := String.ofList (prettyChars 0 j)

end Json

end FieldContracts
