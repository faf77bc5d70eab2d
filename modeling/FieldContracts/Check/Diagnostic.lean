import FieldContracts.Class.Basic

/-!
# Diagnostics

A diagnostic says which rule a method breaks, where the method is and what is wrong with it.
-/

namespace FieldContracts

/-- The family of rules that a diagnostic belongs to. -/
inductive DiagnosticKind where
  /-- The declared contract is malformed, or the body does not keep it. -/
  | annotationValueInvalid
  /-- The override requires more than the method it overrides. -/
  | wrongOverridePrecondition
  /-- The override ensures less than the method it overrides. -/
  | wrongOverridePostcondition
deriving DecidableEq, Repr

/-- The fixed tag under which reports show the family. -/
def DiagnosticKind.tag : DiagnosticKind → String
  | .annotationValueInvalid => "ANNOTATION_VALUE_INVALID"
  | .wrongOverridePrecondition => "WRONG_OVERRIDE_PRECONDITION"
  | .wrongOverridePostcondition => "WRONG_OVERRIDE_POSTCONDITION"

/-- The method that a diagnostic is about. -/
structure Location where
  method : MethodId
  qualifiedName : String
deriving DecidableEq, Repr

structure Diagnostic where
  kind : DiagnosticKind
  message : String
  location : Location
deriving DecidableEq, Repr

/-- The diagnostic as one line of a report. -/
def Diagnostic.text (d : Diagnostic) : String :=
  s!"{d.location.qualifiedName}: [{d.kind.tag}] {d.message}"

end FieldContracts
