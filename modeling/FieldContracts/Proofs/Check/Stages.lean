import FieldContracts.Check.Method

/-!
# The stages of a check

A check reads the declaration of a method, reports the fault in which the reading ends, if it ends
in one, and compares the method with the one that it overrides, unless the fault forbids it.
`check_eq` puts a check together from these stages.  `conflictOf?` names what the comparison finds,
and `diagnostics_check` says that the check reports the fault and the conflict, and nothing else.
-/

namespace FieldContracts

/-- The kind of diagnostic that reports an override which breaks a contract of this kind. -/
def ContractKind.violationKind : ContractKind → DiagnosticKind
  | .precondition => .wrongOverridePrecondition
  | .postcondition => .wrongOverridePostcondition

/-- A violated contract with the method that it is inherited from. -/
structure Conflict where
  overridden : MethodId
  violation : Violation
deriving DecidableEq, Repr

/-- The fault in which the reading of a declaration ends. -/
def ContractFault.ofReading? : Except ContractFault Contract → Option ContractFault
  | .ok _ => none
  | .error fault => some fault

namespace Rule

variable {rule : Rule} {h : Hierarchy} {facts : ExitFacts} {m : MethodId} {decl : MethodDecl}
  {own : Contract} {c : ClassId}

/-- How a method with the contract `own` conflicts with the method that it overrides. -/
def conflict? (rule : Rule) (h : Hierarchy) (m : MethodId) (own : Contract) : Option Conflict :=
  (h.closestOverridden? m).bind fun overridden =>
    (own.violation? (rule.inheritedContract h overridden)).map (Conflict.mk overridden)

/-- The report on a conflict of the method `m`. -/
def conflictDiagnostic (rule : Rule) (h : Hierarchy) (m : MethodId) (conflict : Conflict) :
    Diagnostic :=
  ⟨conflict.violation.diagnosticKind,
    conflict.violation.message rule.simpleName (h.qualifiedName m)
      (h.qualifiedName conflict.overridden),
    h.location m⟩

theorem diagnostics_compare :
    (rule.compare h m own).diagnostics =
      (rule.conflict? h m own).toList.map (rule.conflictDiagnostic h m) := by
  unfold compare conflict?
  cases h.closestOverridden? m with
  | none => rfl
  | some overridden =>
      rw [Option.bind_some]
      cases hviolation : own.violation? (rule.inheritedContract h overridden) with
      | none => simp [hviolation]
      | some violation => simp [hviolation, conflictDiagnostic]

theorem outcome_compare :
    (rule.compare h m own).outcome =
      if h.closestOverridden? m = none then .noOverride
      else if (rule.conflict? h m own).isSome then .violated else .consistent := by
  unfold compare conflict?
  cases h.closestOverridden? m with
  | none => rfl
  | some overridden =>
      rw [Option.bind_some]
      cases hviolation : own.violation? (rule.inheritedContract h overridden) with
      | none => simp [hviolation]
      | some violation => simp [hviolation]

/-- The contract with which a method is compared once its declaration has been read, if it is
compared at all. -/
def comparedContract? (rule : Rule) : Except ContractFault Contract → Option Contract
  | .ok own => some own
  | .error (.malformed _) =>
      match rule.policy with
      | .skipInheritance => none
      | .treatAsEmpty => some (Contract.implicit rule.kind)
  | .error (.unensured _) => none

/-- The reports on a method with this fault and this conflict. -/
def reports (rule : Rule) (h : Hierarchy) (m : MethodId) (fault : Option ContractFault)
    (conflict : Option Conflict) : List Diagnostic :=
  fault.toList.map (rule.faultDiagnostic h m) ++
    conflict.toList.map (rule.conflictDiagnostic h m)

/-- The verdict on a method whose declaration has been read. -/
def verdict (rule : Rule) (h : Hierarchy) (m : MethodId)
    (reading : Except ContractFault Contract) : Verdict where
  outcome := ((rule.comparedContract? reading).map fun own =>
    (rule.compare h m own).outcome).getD .invalidDeclaration
  diagnostics := rule.reports h m (ContractFault.ofReading? reading)
    ((rule.comparedContract? reading).bind (rule.conflict? h m))

/-- A check is the verdict on what the method's own declaration is read as. -/
theorem check_eq (hm : h.method? m = some decl) :
    rule.check h facts m = rule.verdict h m (rule.ownContract h facts m decl.owner) := by
  have hcompare : ∀ own, rule.compare h m own =
      ⟨(rule.compare h m own).outcome,
        (rule.conflict? h m own).toList.map (rule.conflictDiagnostic h m)⟩ := fun own => by
    rw [← diagnostics_compare]
  unfold check verdict
  rw [hm]
  cases hreading : rule.ownContract h facts m decl.owner with
  | ok own =>
      simp only [hreading, comparedContract?, ContractFault.ofReading?, reports]
      exact hcompare own
  | error fault =>
      cases fault with
      | unensured gap => simp [hreading, comparedContract?, ContractFault.ofReading?, reports]
      | malformed error =>
          cases hpolicy : rule.policy with
          | skipInheritance =>
              simp [hreading, hpolicy, comparedContract?, ContractFault.ofReading?, reports]
          | treatAsEmpty =>
              simp [hreading, hpolicy, comparedContract?, ContractFault.ofReading?, reports,
                diagnostics_compare]

/-- The conflict that a check finds. -/
def conflictOf? (rule : Rule) (h : Hierarchy) (facts : ExitFacts) (m : MethodId) :
    Option Conflict :=
  (h.method? m).bind fun decl =>
    (rule.comparedContract? (rule.ownContract h facts m decl.owner)).bind (rule.conflict? h m)

/-- The fault of the declaration that a check finds. -/
def faultOf? (rule : Rule) (h : Hierarchy) (facts : ExitFacts) (m : MethodId) :
    Option ContractFault :=
  (h.method? m).bind fun decl =>
    ContractFault.ofReading? (rule.ownContract h facts m decl.owner)

/-- A check reports the fault of the declaration and then the conflict. -/
theorem diagnostics_check :
    (rule.check h facts m).diagnostics =
      rule.reports h m (rule.faultOf? h facts m) (rule.conflictOf? h facts m) := by
  unfold faultOf? conflictOf?
  cases hm : h.method? m with
  | none => simp [check, hm, reports]
  | some decl => rw [check_eq hm, verdict, Option.bind_some, Option.bind_some]

/-! ## What is reported -/

theorem kind_of_violation? {overridden : Contract} {violation : Violation}
    (hviolation : own.violation? overridden = some violation) : violation.kind = own.kind := by
  unfold Contract.violation? at hviolation
  simp only [Option.ite_none_left_eq_some, Option.some.injEq] at hviolation
  rw [← hviolation.2]

theorem diagnosticKind_eq (violation : Violation) :
    violation.diagnosticKind = violation.kind.violationKind := by
  unfold Violation.diagnosticKind ContractKind.violationKind
  cases violation.kind with
  | precondition => rfl
  | postcondition => rfl

/-- A conflict is reported under the kind of the contract that is compared. -/
theorem kind_conflictDiagnostic {conflict : Conflict}
    (hconflict : rule.conflict? h m own = some conflict) :
    (rule.conflictDiagnostic h m conflict).kind = own.kind.violationKind := by
  obtain ⟨overridden, -, hmapped⟩ := Option.bind_eq_some_iff.mp hconflict
  obtain ⟨violation, hviolation, rfl⟩ := Option.map_eq_some_iff.mp hmapped
  rw [← kind_of_violation? hviolation]
  exact diagnosticKind_eq violation

end Rule

end FieldContracts
