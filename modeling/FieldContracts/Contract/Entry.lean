/-!
# Entries of a contract declaration

An entry names a field of the method's receiver, bare or after `this.`; any other path names
nothing that a contract can speak of.
-/

namespace FieldContracts

/-- What follows `this.` when the text starts with it. -/
def afterThis? (entry : String) : Option String :=
  match entry.toList with
  | 't' :: 'h' :: 'i' :: 's' :: '.' :: rest => some (String.ofList rest)
  | _ => none

/-- A name without a dot, and not the empty one. -/
def isSimpleName (name : String) : Bool :=
  !name.isEmpty && !name.toList.contains '.'

/-- What follows the last dot, or the whole text when it has none. -/
def lastSegment (path : String) : String :=
  String.ofList (path.toList.reverse.takeWhile (· != '.')).reverse

/-- How an entry names the owner of its field. -/
inductive Receiver where
  /-- A bare name. -/
  | implicit
  /-- A name after `this.`. -/
  | this
deriving DecidableEq, Repr

/-- A field of the receiver, as an entry names it. -/
structure FieldReference where
  receiver : Receiver
  name : String
deriving DecidableEq, Repr

/-- Reads `f` and `this.f`, where `f` is a simple name. -/
def FieldReference.ofEntry? (entry : String) : Option FieldReference :=
  match afterThis? entry with
  | some rest => if isSimpleName rest then some ⟨.this, rest⟩ else none
  | none => if isSimpleName entry then some ⟨.implicit, entry⟩ else none

/-- An entry with `this.` in front is the receiver, a dot and the rest. -/
theorem afterThis?_eq_some_iff {entry rest : String} :
    afterThis? entry = some rest ↔ entry = "this." ++ rest := by
  constructor
  · intro h
    unfold afterThis? at h
    split at h
    · next tail heq =>
      obtain rfl : String.ofList tail = rest := by simpa using h
      rw [← String.toList_inj, heq]
      simp
    · simp at h
  · rintro rfl
    simp [afterThis?]

/-- A text without a dot is its own last segment. -/
theorem lastSegment_of_dotless {name : String} (hdot : '.' ∉ name.toList) :
    lastSegment name = name := by
  have hall : name.toList.reverse.takeWhile (· != '.') = name.toList.reverse := by
    have hkeep : (name.toList.reverse ++ []).takeWhile (· != '.') =
        name.toList.reverse ++ [].takeWhile (· != '.') :=
      List.takeWhile_append_of_pos fun c hc => by
        simp only [bne_iff_ne]
        exact fun heq => hdot (heq ▸ List.mem_reverse.mp hc)
    simpa using hkeep
  simp [lastSegment, hall]

end FieldContracts
