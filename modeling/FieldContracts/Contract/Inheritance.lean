import FieldContracts.Contract.Basic

/-!
# Contracts of an override

A caller that knows only the overridden method must be safe with the override: the override may
require no more and ensure no less.
-/

namespace FieldContracts

/-- The fields by which an override requires more, or ensures less, than the method it overrides. -/
structure Violation where
  kind : ContractKind
  fields : NameSet
deriving DecidableEq, Repr

/-- The report on a violation by `method` of the contract of `overridden`. -/
def Violation.message (simpleName method overridden : String) (v : Violation) : String :=
  let fields := v.fields.listed
  match v.kind with
  | .precondition =>
      s!"precondition inheritance is violated: {method} cannot have a stricter @{simpleName} " ++
        s!"precondition than its overridden method {overridden}; fields [{fields}] are not " ++
        s!"required by {overridden}"
  | .postcondition =>
      s!"postcondition inheritance is violated: {method} must guarantee every field in the " ++
        s!"@{simpleName} of its overridden method {overridden}; fields [{fields}] must also " ++
        s!"appear in its own @{simpleName}"

namespace ContractKind

/-- The fields that stand in the way of one contract replacing the other: required by the override
alone, or ensured by the overridden method alone. -/
def incompatibleFields (kind : ContractKind) (own overridden : NameSet) : NameSet :=
  match kind with
  | .precondition => own.diff overridden
  | .postcondition => overridden.diff own

end ContractKind

namespace Contract

/-- How the contract of an override violates that of the overridden method, if it does. -/
def violation? (own overridden : Contract) : Option Violation :=
  let fields := own.kind.incompatibleFields own.fields overridden.fields
  if fields.isEmpty then none else some ⟨own.kind, fields⟩

/-- An override may stand in for a method with a precondition if it requires no other field. -/
theorem violation?_precondition_eq_none_iff {own overridden : Contract}
    (hkind : own.kind = .precondition) :
    own.violation? overridden = none ↔ ∀ field ∈ own.fields, field ∈ overridden.fields := by
  simp [violation?, ContractKind.incompatibleFields, hkind, NameSet.isEmpty_diff_iff]

/-- An override may stand in for a method with a postcondition if it ensures every field of it. -/
theorem violation?_postcondition_eq_none_iff {own overridden : Contract}
    (hkind : own.kind = .postcondition) :
    own.violation? overridden = none ↔ ∀ field ∈ overridden.fields, field ∈ own.fields := by
  simp [violation?, ContractKind.incompatibleFields, hkind, NameSet.isEmpty_diff_iff]

end Contract

end FieldContracts
