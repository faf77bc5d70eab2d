import FieldContracts.Decimal.FloatText
import FieldContracts.Text.Quoted

/-!
# Why a document is not read

A document may end too early, may be no JSON, or may be JSON of another shape than the reader
expects.  Only the last cause has a text, `ShapeError.message`.
-/

namespace FieldContracts.Json

/-- What stands in a place where something else was expected. -/
inductive Found where
  | null
  | boolean (b : Bool)
  | integer (n : Int)
  | floating (x : Float)
  | text (s : String)
  | sequence
  | map
  /-- The bare name of a variant that holds a value. -/
  | unitVariant

def Found.message : Found → String
  | .null => "null"
  | .boolean true => "boolean `true`"
  | .boolean false => "boolean `false`"
  | .integer n => s!"integer `{n}`"
  | .floating x =>
      let text := Decimal.floatText x
      s!"floating point `{text}`"
  | .text s =>
      let text := Text.quoted s
      s!"string {text}"
  | .sequence => "sequence"
  | .map => "map"
  | .unitVariant => "unit variant"

/-- How the shape of a document differs from what the reader expects. -/
inductive ShapeError where
  | wrongType (found : Found) (expected : String)
  | outOfRange (found : Int) (expected : String)
  | missingField (name : String)
  | duplicateField (name : String)
  | unknownVariant (name : String) (variants : List String)
  /-- A record written as an array ends before its element of this index. -/
  | tooShort (index : Nat) (typeName : String) (fieldCount : Nat)

/-- The names between backquotes, separated by a comma and a blank. -/
def backquoted (names : List String) : String :=
  String.intercalate ", " (names.map fun name => s!"`{name}`")

/-- Two names are joined by a word, more are listed. -/
def alternatives : List String → String
  | [first, second] => s!"expected `{first}` or `{second}`"
  | names =>
      let listed := backquoted names
      s!"expected one of {listed}"

def ShapeError.message : ShapeError → String
  | .wrongType found expected => s!"invalid type: {found.message}, expected {expected}"
  | .outOfRange found expected => s!"invalid value: integer `{found}`, expected {expected}"
  | .missingField name => s!"missing field `{name}`"
  | .duplicateField name => s!"duplicate field `{name}`"
  | .unknownVariant name variants =>
      let expected := alternatives variants
      s!"unknown variant `{name}`, {expected}"
  | .tooShort index typeName fieldCount =>
      let elements := if fieldCount == 1 then "1 element" else s!"{fieldCount} elements"
      s!"invalid length {index}, expected struct {typeName} with {elements}"

/-- Why a document is not read. -/
inductive ReadError where
  /-- The text ends where more is needed. -/
  | endsEarly
  /-- The text is no JSON, or cannot be continued to what the reader expects. -/
  | malformed
  /-- The text is JSON so far, of a shape that the reader does not expect. -/
  | unfitting (error : ShapeError)

end FieldContracts.Json
