import FieldContracts.Text.Unprintable

/-!
# Quoted text in reports

A report shows a text between double quotes, so that its ends and its invisible characters can be
seen.
-/

namespace FieldContracts.Text

/-- How a quoted text spells one character. -/
def spelled (c : Char) : List Char :=
  match c with
  | '\x00' => ['\\', '0']
  | '\t' => ['\\', 't']
  | '\n' => ['\\', 'n']
  | '\r' => ['\\', 'r']
  | '"' => ['\\', '"']
  | '\\' => ['\\', '\\']
  | c =>
      if isUnprintable c then
        '\\' :: 'u' :: '\x7b' :: (Nat.toDigits 16 c.toNat ++ ['\x7d'])
      else [c]

/-- The text between double quotes. -/
def quoted (text : String) : String :=
  String.ofList ('"' :: (text.toList.flatMap spelled ++ ['"']))

end FieldContracts.Text
