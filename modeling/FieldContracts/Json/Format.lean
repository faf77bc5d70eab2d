import FieldContracts.Json.Reader
import FieldContracts.Json.Value

/-!
# Formats

A format says how the values of a type are read and how they are written.
-/

namespace FieldContracts.Json

/-- A reader and a writer for the values of one type. -/
structure Format (α : Type) where
  reader : Reader α
  write : α → Json

namespace Format

variable {α β : Type}

/-- Reads a document that holds one value. -/
def decode (f : Format α) (document : String) : Except ReadError α :=
  f.reader.whole document.toList

/-- Writes a value without blanks. -/
def encode (f : Format α) (value : α) : String := (f.write value).compact

/-- Values that are written as values of another type. -/
def via (f : Format α) (ofRaw : α → β) (toRaw : β → α) : Format β :=
  ⟨f.reader.map ofRaw, fun value => f.write (toRaw value)⟩

def text : Format String := ⟨Reader.text, .str⟩

def flag : Format Bool := ⟨Reader.flag, .bool⟩

def index : Format Nat := ⟨Reader.index, .nat⟩

def list (f : Format α) : Format (List α) :=
  ⟨f.reader.list, fun values => .arr (values.map f.write)⟩

end Format

end FieldContracts.Json
