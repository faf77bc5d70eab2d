import FieldContracts.Contract.Entry
import FieldContracts.NameSet

/-!
# Field contracts

A precondition lists the fields that must be non-null when a method is entered, a postcondition
those that are non-null when it returns.  A method without a declaration has the empty contract.
-/

namespace FieldContracts

inductive ContractKind where
  | precondition
  | postcondition
deriving DecidableEq, Repr

/-- The fields that a method requires or ensures, and whether it declares so itself. -/
structure Contract where
  kind : ContractKind
  fields : NameSet
  isExplicit : Bool
deriving DecidableEq, Repr

/-- The last segments of the entries, each once. -/
def trimReceivers (raw : NameSet) : NameSet :=
  NameSet.ofList (raw.toList.map lastSegment)

namespace Contract

/-- The contract of a method that declares none. -/
def implicit (kind : ContractKind) : Contract := ⟨kind, .empty, false⟩

def declared (kind : ContractKind) (fields : NameSet) : Contract := ⟨kind, fields, true⟩

/-- The contract that the values of an annotation state, taken at their word. -/
def ofDeclaration (kind : ContractKind) : Option NameSet → Contract
  | some raw => declared kind (trimReceivers raw)
  | none => implicit kind

end Contract

end FieldContracts
