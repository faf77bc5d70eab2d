import FieldContracts.Check.Config
import FieldContracts.Check.Diagnostic
import FieldContracts.Contract.Declaration
import FieldContracts.Contract.ExitFacts
import FieldContracts.Contract.Inheritance
import FieldContracts.Hierarchy.Override

/-!
# Checking one method

A rule reads the method's own contract, which must be well formed and kept by the body, and then
compares it with the contract of the overridden method.  At most one fault of the declaration and
one violation are reported.
-/

namespace FieldContracts

/-- How far a method got. -/
inductive Outcome where
  /-- No method has this identity. -/
  | unknownMethod
  /-- The declaration is at fault, and the method was not compared. -/
  | invalidDeclaration
  /-- The method overrides nothing. -/
  | noOverride
  /-- The method may stand in for the one it overrides. -/
  | consistent
  /-- The method may not stand in for the one it overrides. -/
  | violated
deriving DecidableEq, Repr

/-- The outcome for one method, with what is reported of it in order. -/
structure Verdict where
  outcome : Outcome
  diagnostics : List Diagnostic
deriving DecidableEq, Repr

/-- What is wrong with the contract that a method declares. -/
inductive ContractFault where
  | malformed (error : DeclarationError)
  | unensured (gap : Unensured)
deriving DecidableEq, Repr

/-- The report on a fault of the contract of the method so named. -/
def ContractFault.message (simpleName method : String) : ContractFault → String
  | .malformed error => error.message simpleName
  | .unensured gap => gap.message simpleName method

/-- The kind of diagnostic that reports a violation. -/
def Violation.diagnosticKind (v : Violation) : DiagnosticKind :=
  match v.kind with
  | .precondition => .wrongOverridePrecondition
  | .postcondition => .wrongOverridePostcondition

namespace Hierarchy

def location (h : Hierarchy) (m : MethodId) : Location := ⟨m, h.qualifiedName m⟩

end Hierarchy

namespace Rule

/-- The contract that the method has by its own declaration, or the fault of the declaration. -/
def ownContract (rule : Rule) (h : Hierarchy) (facts : ExitFacts) (m : MethodId) (c : ClassId) :
    Except ContractFault Contract :=
  match h.annotationValues m rule.simpleName with
  | none => .ok (Contract.implicit rule.kind)
  | some raw =>
      match h.validate c raw with
      | .error error => .error (.malformed error)
      | .ok fields =>
          let contract := Contract.declared rule.kind fields
          match contract.unensured? (facts m) with
          | none => .ok contract
          | some gap => .error (.unensured gap)

/-- The contract of an overridden method, taken at its word. -/
def inheritedContract (rule : Rule) (h : Hierarchy) (overridden : MethodId) : Contract :=
  Contract.ofDeclaration rule.kind (h.annotationValues overridden rule.simpleName)

/-- Compares a method that has the contract `own` with the method that it overrides. -/
def compare (rule : Rule) (h : Hierarchy) (m : MethodId) (own : Contract) : Verdict :=
  match h.closestOverridden? m with
  | none => ⟨.noOverride, []⟩
  | some overridden =>
      match own.violation? (rule.inheritedContract h overridden) with
      | none => ⟨.consistent, []⟩
      | some v =>
          let message :=
            v.message rule.simpleName (h.qualifiedName m) (h.qualifiedName overridden)
          ⟨.violated, [⟨v.diagnosticKind, message, h.location m⟩]⟩

/-- The report on a fault of the declaration of `m`. -/
def faultDiagnostic (rule : Rule) (h : Hierarchy) (m : MethodId) (fault : ContractFault) :
    Diagnostic :=
  ⟨.annotationValueInvalid, fault.message rule.simpleName (h.qualifiedName m), h.location m⟩

/-- Applies the rule to one method. -/
def check (rule : Rule) (h : Hierarchy) (facts : ExitFacts) (m : MethodId) : Verdict :=
  match h.method? m with
  | none => ⟨.unknownMethod, []⟩
  | some decl =>
      match rule.ownContract h facts m decl.owner with
      | .ok own => rule.compare h m own
      | .error fault =>
          let report := rule.faultDiagnostic h m fault
          -- Only a malformed declaration can be taken for an empty one.
          match fault, rule.policy with
          | .malformed _, .treatAsEmpty =>
              let verdict := rule.compare h m (Contract.implicit rule.kind)
              { verdict with diagnostics := report :: verdict.diagnostics }
          | _, _ => ⟨.invalidDeclaration, [report]⟩

end Rule

end FieldContracts
