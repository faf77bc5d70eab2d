import FieldContracts.Proofs.Check.Coverage
import FieldContracts.Proofs.Check.Silence
import FieldContracts.Proofs.Check.Stages
import Mathlib

/-!
# What the policy for malformed declarations changes

The policy decides whether a method with a malformed declaration is compared with the method that
it overrides, as if it declared nothing.  A method that declares nothing cannot require too much,
so the comparison of preconditions finds nothing; it cannot ensure anything either, so the
comparison of postconditions finds a conflict as soon as the overridden method lists a value
(`Rule.conflict?_implicit_eq_none_iff`).  `Config.checkMethod_of_lacksPostcondition` and
`Config.checkMethod_eq_of_not_lacksPostcondition` say what this means for one method, and
`Config.checkAll_skipping` for a whole hierarchy.
-/

namespace FieldContracts

/-- A place in a list of blocks lies in one block, and behind all of some others. -/
theorem exists_block_of_flatMap_eq {α β : Type} {l : List α} {block : α → List β}
    {before after : List β} {b : β} (hplace : l.flatMap block = before ++ b :: after) :
    ∃ a ∈ l, ∃ earlier inside rest,
      block a = inside ++ b :: rest ∧ before = earlier ++ inside := by
  induction l generalizing before with
  | nil => simp at hplace
  | cons a l ih =>
      rw [List.flatMap_cons] at hplace
      rcases append_eq_append_cons hplace with ⟨rest, hblock, -⟩ | ⟨mid, rfl, hrest⟩
      · exact ⟨a, List.mem_cons_self, [], before, rest, hblock, rfl⟩
      · obtain ⟨a', ha', earlier, inside, rest, hblock, rfl⟩ := ih hrest
        exact ⟨a', List.mem_cons_of_mem _ ha', block a ++ earlier, inside, rest, hblock,
          (List.append_assoc _ _ _).symm⟩

namespace Hierarchy

/-- The fault of what a method declares under the annotation of this name. -/
def declarationError? (h : Hierarchy) (name : String) (m : MethodId) : Option DeclarationError :=
  (h.method? m).bind fun decl =>
    (h.annotationValues m name).bind fun raw =>
      match h.validate decl.owner raw with
      | .ok _ => none
      | .error error => some error

/-- The method overrides one that lists some value under the annotation of this name. -/
def overridesListing (h : Hierarchy) (name : String) (m : MethodId) : Bool :=
  (h.closestOverridden? m).any fun overridden =>
    (h.annotationValues overridden name).any fun raw => !raw.isEmpty

/-- What the method declares is malformed, and taken as nothing it is less than what the method
that it overrides ensures. -/
def lacksPostcondition (h : Hierarchy) (name : String) (m : MethodId) : Bool :=
  (h.declarationError? name m).isSome && h.overridesListing name m

/-- The report is one that only the comparison in place of a malformed postcondition gives. -/
def onlyCompared (h : Hierarchy) (name : String) (d : Diagnostic) : Bool :=
  d.kind == .wrongOverridePostcondition && h.lacksPostcondition name d.location.method

end Hierarchy

open Hierarchy

variable {h : Hierarchy} {facts : ExitFacts} {m : MethodId} {decl : MethodDecl} {d : Diagnostic}
  {name : String} {error : DeclarationError}

namespace Rule

variable {rule : Rule} {kind : ContractKind} {policy policy' : InvalidPolicy}

/-- A declaration is read as malformed if its validation fails. -/
theorem ownContract_eq_malformed_iff (hm : h.method? m = some decl) :
    rule.ownContract h facts m decl.owner = .error (.malformed error) ↔
      h.declarationError? rule.simpleName m = some error := by
  unfold ownContract declarationError?
  rw [hm, Option.bind_some]
  cases h.annotationValues m rule.simpleName with
  | none => simp
  | some raw =>
      cases hvalid : h.validate decl.owner raw with
      | error error' => simp [hvalid]
      | ok fields =>
          simp only [hvalid, Option.bind_some, reduceCtorEq, iff_false]
          split
          · exact nofun
          · exact nofun

/-- The policy has no say in a method whose declaration is not malformed. -/
theorem check_eq_of_declarationError?_eq_none (hnone : h.declarationError? name m = none) :
    check ⟨kind, name, policy⟩ h facts m = check ⟨kind, name, policy'⟩ h facts m := by
  cases hm : h.method? m with
  | none => simp [check, hm]
  | some decl =>
      have hreading : ownContract ⟨kind, name, policy⟩ h facts m decl.owner =
          ownContract ⟨kind, name, policy'⟩ h facts m decl.owner := rfl
      rw [check_eq hm, check_eq hm, hreading]
      cases hown : ownContract ⟨kind, name, policy'⟩ h facts m decl.owner with
      | ok own => rfl
      | error fault =>
          cases fault with
          | unensured gap => rfl
          | malformed error =>
              rw [(ownContract_eq_malformed_iff hm).mp hown] at hnone
              cases hnone

/-- A declaration that the body does not keep is not malformed. -/
theorem declarationError?_eq_none_of_unensured {gap : Unensured}
    (hfault : rule.faultOf? h facts m = some (.unensured gap)) :
    h.declarationError? rule.simpleName m = none := by
  obtain ⟨decl, hm, hfault⟩ := Option.bind_eq_some_iff.mp hfault
  refine Option.eq_none_iff_forall_not_mem.mpr fun error herror => ?_
  rw [(ownContract_eq_malformed_iff hm).mpr herror] at hfault
  cases hfault

/-- Of a malformed declaration that is skipped the fault alone is reported. -/
theorem diagnostics_skipInheritance (herror : h.declarationError? name m = some error) :
    (check ⟨kind, name, .skipInheritance⟩ h facts m).diagnostics =
      [faultDiagnostic ⟨kind, name, .skipInheritance⟩ h m (.malformed error)] := by
  obtain ⟨decl, hm, -⟩ := Option.bind_eq_some_iff.mp herror
  have hreading : ownContract ⟨kind, name, .skipInheritance⟩ h facts m decl.owner =
      .error (.malformed error) := (ownContract_eq_malformed_iff hm).mpr herror
  rw [check_eq hm, hreading]
  rfl

/-- Of a malformed declaration that is taken for an empty one the fault is reported, and then what
the comparison of an empty contract finds. -/
theorem diagnostics_treatAsEmpty (herror : h.declarationError? name m = some error) :
    (check ⟨kind, name, .treatAsEmpty⟩ h facts m).diagnostics =
      faultDiagnostic ⟨kind, name, .treatAsEmpty⟩ h m (.malformed error) ::
        (conflict? ⟨kind, name, .treatAsEmpty⟩ h m (Contract.implicit kind)).toList.map
          (conflictDiagnostic ⟨kind, name, .treatAsEmpty⟩ h m) := by
  obtain ⟨decl, hm, -⟩ := Option.bind_eq_some_iff.mp herror
  have hreading : ownContract ⟨kind, name, .treatAsEmpty⟩ h facts m decl.owner =
      .error (.malformed error) := (ownContract_eq_malformed_iff hm).mpr herror
  rw [check_eq hm, hreading]
  rfl

/-- If the empty contract conflicts with nothing, the policy changes no report. -/
theorem diagnostics_eq_of_conflict?_implicit
    (hfree : h.declarationError? name m ≠ none →
      conflict? ⟨kind, name, .treatAsEmpty⟩ h m (Contract.implicit kind) = none) :
    (check ⟨kind, name, .skipInheritance⟩ h facts m).diagnostics =
      (check ⟨kind, name, .treatAsEmpty⟩ h facts m).diagnostics := by
  cases herror : h.declarationError? name m with
  | none => rw [check_eq_of_declarationError?_eq_none herror]
  | some error =>
      have hconflict := hfree (by simp [herror])
      rw [diagnostics_skipInheritance herror, diagnostics_treatAsEmpty herror, hconflict]
      rfl

/-! ## The comparison of an empty contract -/

theorem isEmpty_trimReceivers (raw : NameSet) : (trimReceivers raw).isEmpty = raw.isEmpty := by
  rw [Bool.eq_iff_iff, NameSet.isEmpty_iff, NameSet.isEmpty_iff]
  simp [trimReceivers]

theorem isEmpty_inheritedContract (overridden : MethodId) :
    (rule.inheritedContract h overridden).fields.isEmpty =
      (h.annotationValues overridden rule.simpleName).all (·.isEmpty) := by
  unfold inheritedContract
  cases h.annotationValues overridden rule.simpleName with
  | none => rfl
  | some raw => exact isEmpty_trimReceivers raw

theorem not_mem_implicit {kind : ContractKind} (f : String) :
    f ∉ (Contract.implicit kind).fields := List.not_mem_nil

/-- An empty contract may stand in for any precondition and for an empty postcondition. -/
theorem violation?_implicit_eq_none_iff {overridden : Contract} :
    (Contract.implicit kind).violation? overridden = none ↔
      kind = .postcondition → overridden.fields.isEmpty = true := by
  rw [Contract.violation?_eq_none_iff]
  cases kind with
  | precondition => exact ⟨fun _ => nofun, fun _ f hf => absurd hf (not_mem_implicit f)⟩
  | postcondition =>
      rw [NameSet.isEmpty_iff]
      constructor
      · intro hcovered _ f hf
        exact not_mem_implicit f (hcovered f hf)
      · intro hempty f hf
        exact absurd hf (hempty rfl f)

/-- An empty contract conflicts with nothing but a postcondition that lists some value. -/
theorem conflict?_implicit_eq_none_iff :
    rule.conflict? h m (Contract.implicit rule.kind) = none ↔
      (rule.kind = .postcondition → h.overridesListing rule.simpleName m = false) := by
  unfold conflict? overridesListing
  cases h.closestOverridden? m with
  | none => simp
  | some overridden =>
      rw [Option.bind_some, Option.map_eq_none_iff, violation?_implicit_eq_none_iff,
        isEmpty_inheritedContract, Option.any_some]
      cases h.annotationValues overridden rule.simpleName with
      | none => simp
      | some raw => simp

/-- A rule for preconditions reports the same under both policies. -/
theorem diagnostics_precondition :
    (check ⟨.precondition, name, .skipInheritance⟩ h facts m).diagnostics =
      (check ⟨.precondition, name, .treatAsEmpty⟩ h facts m).diagnostics :=
  diagnostics_eq_of_conflict?_implicit fun _ => conflict?_implicit_eq_none_iff.mpr nofun

theorem kind_of_comparedContract? {reading : Except ContractFault Contract} {own : Contract}
    (hreading : rule.ownContract h facts m decl.owner = reading)
    (hown : rule.comparedContract? reading = some own) : own.kind = rule.kind := by
  cases reading with
  | ok declared =>
      obtain rfl := Option.some.inj hown
      exact kind_of_ownContract hreading
  | error fault =>
      cases fault with
      | unensured gap => cases hown
      | malformed error =>
          cases hpolicy : rule.policy with
          | skipInheritance => simp [comparedContract?, hpolicy] at hown
          | treatAsEmpty =>
              simp only [comparedContract?, hpolicy, Option.some.injEq] at hown
              rw [← hown]
              rfl

/-- A rule reports faults of declarations, and conflicts of its own kind. -/
theorem kind_of_mem_check (hd : d ∈ (rule.check h facts m).diagnostics) :
    d.kind = .annotationValueInvalid ∨ d.kind = rule.kind.violationKind := by
  rw [diagnostics_check, reports, List.mem_append, List.mem_map, List.mem_map] at hd
  rcases hd with ⟨fault, -, rfl⟩ | ⟨conflict, hconflict, rfl⟩
  · exact Or.inl rfl
  · obtain ⟨decl, -, hcompared⟩ := Option.bind_eq_some_iff.mp (Option.mem_toList.mp hconflict)
    obtain ⟨own, hown, hconflict⟩ := Option.bind_eq_some_iff.mp hcompared
    rw [← kind_of_comparedContract? rfl hown]
    exact Or.inr (kind_conflictDiagnostic hconflict)

end Rule

namespace Config

variable {pre post : String}

/-- The configuration with these annotation names that does not compare malformed contracts. -/
def skipping (pre post : String) : Config := ⟨pre, post, .skipInheritance⟩

/-- The configuration with these annotation names that takes malformed contracts for empty ones. -/
def treatingAsEmpty (pre post : String) : Config := ⟨pre, post, .treatAsEmpty⟩

/-- A method that lacks a postcondition gets one more report, at the end and directly after the one
on its declaration. -/
theorem checkMethod_of_lacksPostcondition (pre : String) (facts : ExitFacts)
    (hlacks : h.lacksPostcondition post m = true) :
    ∃ reports error conflict,
      h.declarationError? post m = some error ∧
      (skipping pre post).checkMethod h facts m =
        reports ++ [Rule.faultDiagnostic ⟨.postcondition, post, .skipInheritance⟩ h m
          (.malformed error)] ∧
      (treatingAsEmpty pre post).checkMethod h facts m =
        (skipping pre post).checkMethod h facts m ++ [conflict] ∧
      conflict.kind = .wrongOverridePostcondition ∧
      ∀ d ∈ (skipping pre post).checkMethod h facts m,
        d.kind ≠ .wrongOverridePostcondition := by
  obtain ⟨hsome, hlisting⟩ := Bool.and_eq_true_iff.mp hlacks
  obtain ⟨error, herror⟩ := Option.isSome_iff_exists.mp hsome
  have hconflict : Rule.conflict? ⟨.postcondition, post, .treatAsEmpty⟩ h m
      (Contract.implicit .postcondition) ≠ none := by
    intro hnone
    have hfree := Rule.conflict?_implicit_eq_none_iff.mp hnone rfl
    rw [hlisting] at hfree
    cases hfree
  obtain ⟨conflict, hconflict⟩ := Option.ne_none_iff_exists'.mp hconflict
  have hskip : (skipping pre post).checkMethod h facts m =
      (Rule.check ⟨.precondition, pre, .skipInheritance⟩ h facts m).diagnostics ++
        [Rule.faultDiagnostic ⟨.postcondition, post, .skipInheritance⟩ h m
          (.malformed error)] := by
    rw [checkMethod_eq_append, skipping, Rule.diagnostics_skipInheritance herror]
  refine ⟨_, error, Rule.conflictDiagnostic ⟨.postcondition, post, .treatAsEmpty⟩ h m conflict,
    herror, hskip, ?_, Rule.kind_conflictDiagnostic hconflict, fun d hd => ?_⟩
  · rw [checkMethod_eq_append, checkMethod_eq_append, skipping, treatingAsEmpty,
      Rule.diagnostics_skipInheritance herror, Rule.diagnostics_treatAsEmpty herror, hconflict,
      Rule.diagnostics_precondition, List.append_assoc]
    rfl
  · rw [hskip, List.mem_append, List.mem_singleton] at hd
    rcases hd with hd | rfl
    · rcases Rule.kind_of_mem_check hd with hkind | hkind
      · rw [hkind]
        exact nofun
      · rw [hkind]
        exact nofun
    · exact nofun

/-- Of any other method both policies report the same. -/
theorem checkMethod_eq_of_not_lacksPostcondition (hlacks : h.lacksPostcondition post m = false) :
    (skipping pre post).checkMethod h facts m =
      (treatingAsEmpty pre post).checkMethod h facts m := by
  have hpost : (Rule.check ⟨.postcondition, post, .skipInheritance⟩ h facts m).diagnostics =
      (Rule.check ⟨.postcondition, post, .treatAsEmpty⟩ h facts m).diagnostics := by
    refine Rule.diagnostics_eq_of_conflict?_implicit fun herror => ?_
    refine Rule.conflict?_implicit_eq_none_iff.mpr fun _ => ?_
    simpa [lacksPostcondition, Option.isSome_iff_ne_none.mpr herror] using hlacks
  rw [checkMethod_eq_append, checkMethod_eq_append, skipping, treatingAsEmpty, hpost,
    Rule.diagnostics_precondition]

/-- Skipping the comparison leaves out exactly the reports that only it gives. -/
theorem checkMethod_skipping :
    (skipping pre post).checkMethod h facts m =
      ((treatingAsEmpty pre post).checkMethod h facts m).filter
        (fun d => !h.onlyCompared post d) := by
  have hlocation : ∀ d ∈ (treatingAsEmpty pre post).checkMethod h facts m,
      d.location.method = m := fun _ => method_of_mem_checkMethod
  cases hlacks : h.lacksPostcondition post m with
  | false =>
      rw [checkMethod_eq_of_not_lacksPostcondition hlacks, List.filter_eq_self.mpr]
      intro d hd
      simp [onlyCompared, hlocation d hd, hlacks]
  | true =>
      obtain ⟨reports, error, conflict, -, -, htreat, hkind, hother⟩ :=
        checkMethod_of_lacksPostcondition pre facts hlacks
      have hself : conflict.location.method = m := hlocation conflict (by simp [htreat])
      have hdropped : h.onlyCompared post conflict = true := by
        simp [onlyCompared, hkind, hself, hlacks]
      have hkept : ∀ d ∈ (skipping pre post).checkMethod h facts m,
          (!h.onlyCompared post d) = true := by
        intro d hd
        simp [onlyCompared, hother d hd]
      rw [htreat, List.filter_append, List.filter_eq_self.mpr hkept]
      simp [hdropped]

/-- A report that only the comparison gives stands directly behind the one on the malformed
postcondition of the same method. -/
theorem directly_behind_fault {before after : List Diagnostic}
    (hplace : (treatingAsEmpty pre post).checkMethod h facts m = before ++ d :: after)
    (honly : h.onlyCompared post d = true) :
    ∃ earlier error, h.declarationError? post m = some error ∧
      before = earlier ++ [Rule.faultDiagnostic ⟨.postcondition, post, .treatAsEmpty⟩ h m
        (.malformed error)] := by
  obtain ⟨hkind, hlacks⟩ := Bool.and_eq_true_iff.mp honly
  have hmem : d ∈ (treatingAsEmpty pre post).checkMethod h facts m := by simp [hplace]
  have hlocation : d.location.method = m := method_of_mem_checkMethod hmem
  rw [hlocation] at hlacks
  obtain ⟨reports, error, conflict, herror, hskip, htreat, -, hother⟩ :=
    checkMethod_of_lacksPostcondition pre facts hlacks
  rw [htreat] at hplace
  -- Only the last report has the kind of `d`.
  have hbefore : d ∉ (skipping pre post).checkMethod h facts m := fun hd =>
    hother d hd (beq_iff_eq.mp hkind)
  obtain ⟨hsplit, -, -⟩ :=
    (List.append_cons_inj_of_notMem hbefore List.not_mem_nil).mp hplace
  exact ⟨reports, error, herror, by rw [← hsplit, hskip]; rfl⟩

theorem mem_methodOrder_of_lacksPostcondition (hco : h.Coherent)
    (hlacks : h.lacksPostcondition post m = true) : m ∈ h.methodOrder := by
  obtain ⟨hsome, -⟩ := Bool.and_eq_true_iff.mp hlacks
  obtain ⟨error, herror⟩ := Option.isSome_iff_exists.mp hsome
  obtain ⟨decl, hm, -⟩ := Option.bind_eq_some_iff.mp herror
  exact (mem_methodOrder_iff hco).mpr (mem_methodIds_iff.mpr (lt_methodCount hm))

/-- What is reported when malformed declarations are skipped is what is reported when they are
taken for empty ones, without certain conflicts of postconditions.  Each stands directly behind the
report on the malformed postcondition of its method, and there is one for exactly the methods with
a malformed postcondition that override a method whose postcondition lists some value.  No report
on a precondition depends on the policy, and nothing at all where the body does not keep what is
declared. -/
theorem checkAll_skipping (hreach : h.Reachable) (pre post : String) (facts : ExitFacts) :
    (skipping pre post).checkAll h facts =
      ((treatingAsEmpty pre post).checkAll h facts).filter
        (fun d => !h.onlyCompared post d) ∧
    (∀ before d after,
      (treatingAsEmpty pre post).checkAll h facts = before ++ d :: after →
        h.onlyCompared post d = true →
          ∃ earlier error, h.declarationError? post d.location.method = some error ∧
            before = earlier ++ [Rule.faultDiagnostic ⟨.postcondition, post, .treatAsEmpty⟩ h
              d.location.method (.malformed error)]) ∧
    (∀ m, h.lacksPostcondition post m = true ↔
      ∃ d ∈ (treatingAsEmpty pre post).checkAll h facts,
        h.onlyCompared post d = true ∧ d.location.method = m) ∧
    (∀ m, (Rule.check ⟨.precondition, pre, .skipInheritance⟩ h facts m).diagnostics =
      (Rule.check ⟨.precondition, pre, .treatAsEmpty⟩ h facts m).diagnostics) ∧
    ∀ kind name m gap,
      Rule.faultOf? ⟨kind, name, .skipInheritance⟩ h facts m = some (.unensured gap) →
        Rule.check ⟨kind, name, .skipInheritance⟩ h facts m =
          Rule.check ⟨kind, name, .treatAsEmpty⟩ h facts m := by
  have hco : h.Coherent := hreach.coherent
  refine ⟨?_, ?_, fun m => ⟨fun hlacks => ?_, ?_⟩, fun m => Rule.diagnostics_precondition, ?_⟩
  · rw [checkAll_eq_flatMap_methodOrder, checkAll_eq_flatMap_methodOrder, List.filter_flatMap]
    exact List.flatMap_congr fun m _ => checkMethod_skipping
  · intro before d after hplace honly
    rw [checkAll_eq_flatMap_methodOrder] at hplace
    obtain ⟨m, -, others, inside, rest, hblock, rfl⟩ := exists_block_of_flatMap_eq hplace
    have hmem : d ∈ (treatingAsEmpty pre post).checkMethod h facts m := by simp [hblock]
    rw [method_of_mem_checkMethod hmem]
    obtain ⟨earlier, error, herror, rfl⟩ := directly_behind_fault hblock honly
    exact ⟨others ++ earlier, error, herror, (List.append_assoc _ _ _).symm⟩
  · obtain ⟨reports, error, conflict, -, -, htreat, hkind, -⟩ :=
      checkMethod_of_lacksPostcondition pre facts hlacks
    have hmem : conflict ∈ (treatingAsEmpty pre post).checkMethod h facts m := by simp [htreat]
    have hlocation : conflict.location.method = m := method_of_mem_checkMethod hmem
    refine ⟨conflict, ?_, ?_, hlocation⟩
    · rw [checkAll_eq_flatMap_methodOrder]
      exact List.mem_flatMap.mpr ⟨m, mem_methodOrder_of_lacksPostcondition hco hlacks, hmem⟩
    · simp [onlyCompared, hkind, hlocation, hlacks]
  · rintro ⟨d, -, honly, rfl⟩
    exact (Bool.and_eq_true_iff.mp honly).2
  · intro kind name m gap hfault
    exact Rule.check_eq_of_declarationError?_eq_none
      (Rule.declarationError?_eq_none_of_unensured hfault)

/-- `Sub.run` overrides a method that ensures `f`, and misspells the field. -/
def misspelledPostcondition : List Operation := [
  .addClass "Base", .addClass "Sub", .setSuperclass ⟨1⟩ ⟨0⟩, .addField ⟨0⟩ ⟨"f", false⟩,
  .addMethod ⟨0⟩ ⟨⟨"run", []⟩, false, [⟨"EnsuresNonNull", ["f"]⟩]⟩,
  .addMethod ⟨1⟩ ⟨⟨"run", []⟩, false, [⟨"EnsuresNonNull", ["ff"]⟩]⟩]

theorem checkAll_skipping_misspelledPostcondition :
    (after misspelledPostcondition).lacksPostcondition "EnsuresNonNull" ⟨1⟩ = true ∧
    ∃ d ∈ (treatingAsEmpty "RequiresNonNull" "EnsuresNonNull").checkAll
        (after misspelledPostcondition) ExitFacts.unknown,
      d ∉ (skipping "RequiresNonNull" "EnsuresNonNull").checkAll
        (after misspelledPostcondition) ExitFacts.unknown ∧ d.location.method = ⟨1⟩ := by
  have hlacks : (after misspelledPostcondition).lacksPostcondition "EnsuresNonNull" ⟨1⟩ = true := by
    cbv
  have hreach : (after misspelledPostcondition).Reachable := ⟨misspelledPostcondition, rfl⟩
  obtain ⟨hfilter, -, hexactly, -⟩ :=
    checkAll_skipping hreach "RequiresNonNull" "EnsuresNonNull" ExitFacts.unknown
  obtain ⟨d, hd, honly, hlocation⟩ := (hexactly ⟨1⟩).mp hlacks
  refine ⟨hlacks, d, hd, ?_, hlocation⟩
  rw [hfilter, List.mem_filter]
  rintro ⟨-, hkept⟩
  rw [honly] at hkept
  cases hkept

end Config

end FieldContracts
