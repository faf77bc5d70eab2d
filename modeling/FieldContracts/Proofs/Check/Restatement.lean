import FieldContracts.Check.Whole
import FieldContracts.Proofs.Check.Stages
import FieldContracts.Proofs.Hierarchy.Restatement
import Mathlib

/-!
# Contracts are sets

In which order and how often an annotation lists its values, or the facts the fields of a method,
changes no more than the texts of the reports.  A declaration is read alike (`ownContract_restated`)
although another of its entries may be the first faulty one, and the comparison with the overridden
method finds the same fields (`conflict?_restated`).  `checkAll_restated` follows stage by stage.
-/

namespace FieldContracts

/-- Contracts of one kind with the same fields. -/
structure Contract.Same (contract contract' : Contract) : Prop where
  kind : contract'.kind = contract.kind
  fields : contract.fields.Same contract'.fields

/-- Violations of one kind by the same fields. -/
structure Violation.Same (violation violation' : Violation) : Prop where
  kind : violation'.kind = violation.kind
  fields : violation.fields.Same violation'.fields

/-- Conflicts with one method over the same fields. -/
structure Conflict.Same (conflict conflict' : Conflict) : Prop where
  overridden : conflict'.overridden = conflict.overridden
  violation : conflict.violation.Same conflict'.violation

/-- Of each method the same fields are known, or nothing in both. -/
def ExitFacts.Same (facts facts' : ExitFacts) : Prop :=
  ∀ m, Option.Rel NameSet.Same (facts m) (facts' m)

/-- Declarations that are read as the same contract or are both at fault, in the same way. -/
inductive SameReading : Except ContractFault Contract → Except ContractFault Contract → Prop where
  | contract {own own' : Contract} (hown : own.Same own') : SameReading (.ok own) (.ok own')
  | malformed (error error' : DeclarationError) :
      SameReading (.error (.malformed error)) (.error (.malformed error'))
  | unensured (gap gap' : Unensured) :
      SameReading (.error (.unensured gap)) (.error (.unensured gap'))

theorem SameReading.ofReading? {reading reading' : Except ContractFault Contract}
    (hreading : SameReading reading reading') :
    Option.Rel (fun _ _ => True) (ContractFault.ofReading? reading)
      (ContractFault.ofReading? reading') := by
  cases hreading with
  | contract _ => exact .none
  | malformed _ _ => exact .some trivial
  | unensured _ _ => exact .some trivial

namespace Contract.Same

variable {own own' overridden overridden' : Contract} {known known' : Option NameSet}

theorem violation? (hown : own.Same own') (hoverridden : overridden.Same overridden') :
    Option.Rel Violation.Same (own.violation? overridden) (own'.violation? overridden') := by
  have hfields : (own.kind.incompatibleFields own.fields overridden.fields).Same
      (own.kind.incompatibleFields own'.fields overridden'.fields) := by
    cases own.kind with
    | precondition => exact hown.fields.diff hoverridden.fields
    | postcondition => exact hoverridden.fields.diff hown.fields
  unfold Contract.violation?
  simp only [hown.kind, hfields.isEmpty]
  split
  · exact .none
  · exact .some ⟨rfl, hfields⟩

/-- Whether there is a gap does not depend on the order in which the fields are declared or
known. -/
theorem unensured? (hown : own.Same own') (hknown : Option.Rel NameSet.Same known known') :
    Option.Rel (fun _ _ => True) (own.unensured? known) (own'.unensured? known') := by
  unfold Contract.unensured?
  rw [hown.kind]
  cases own.kind with
  | precondition => exact .none
  | postcondition =>
      cases hknown with
      | none => exact .none
      | some hensured =>
          have hmissing := hown.fields.diff hensured
          simp only [hmissing.isEmpty]
          split
          · exact .none
          · exact .some trivial

end Contract.Same

namespace Rule

variable {h h' : Hierarchy} {facts facts' : ExitFacts}
  {reading reading' : Except ContractFault Contract} {own own' : Contract}

open Hierarchy

/-! ## Reading declarations -/

theorem inheritedContract_restated (hre : h.RestatedBy h') (rule : Rule) (overridden : MethodId) :
    (rule.inheritedContract h overridden).Same (rule.inheritedContract h' overridden) := by
  unfold inheritedContract
  rcases cases_of_rel (hre.annotationValues_restated overridden rule.simpleName) with
    ⟨hvalues, hvalues'⟩ | ⟨raw, raw', hvalues, hvalues', hraw⟩
  · rw [hvalues, hvalues']
    exact ⟨rfl, fun _ => Iff.rfl⟩
  · rw [hvalues, hvalues']
    refine ⟨rfl, fun f => ?_⟩
    simp only [Contract.ofDeclaration, Contract.declared, trimReceivers, NameSet.mem_ofList,
      List.mem_map, NameSet.mem_toList, hraw _]

/-- A declaration is read alike, though its first faulty entry may be another one. -/
theorem ownContract_restated (hre : h.RestatedBy h') (hfacts : facts.Same facts') (rule : Rule)
    (m : MethodId) (c : ClassId) :
    SameReading (rule.ownContract h facts m c) (rule.ownContract h' facts' m c) := by
  unfold ownContract
  rcases cases_of_rel (hre.annotationValues_restated m rule.simpleName) with
    ⟨hvalues, hvalues'⟩ | ⟨raw, raw', hvalues, hvalues', hraw⟩
  · rw [hvalues, hvalues']
    exact .contract ⟨rfl, fun _ => Iff.rfl⟩
  · rw [hvalues, hvalues']
    rcases hre.validate_restated c hraw with
      ⟨error, error', hvalid, hvalid'⟩ | ⟨fields, fields', hvalid, hvalid', hfields⟩
    · simp only [hvalid, hvalid']
      exact .malformed error error'
    · have hdeclared : (Contract.declared rule.kind fields).Same
          (Contract.declared rule.kind fields') := ⟨rfl, hfields⟩
      simp only [hvalid, hvalid']
      rcases cases_of_rel (hdeclared.unensured? (hfacts m)) with
        ⟨hgap, hgap'⟩ | ⟨gap, gap', hgap, hgap', -⟩
      · simp only [hgap, hgap']
        exact .contract hdeclared
      · simp only [hgap, hgap']
        exact .unensured gap gap'

theorem comparedContract?_same (rule : Rule) (hreading : SameReading reading reading') :
    Option.Rel Contract.Same (rule.comparedContract? reading)
      (rule.comparedContract? reading') := by
  cases hreading with
  | contract hown => exact .some hown
  | malformed error error' =>
      unfold comparedContract?
      cases rule.policy with
      | skipInheritance => exact .none
      | treatAsEmpty => exact .some ⟨rfl, fun _ => Iff.rfl⟩
  | unensured gap gap' => exact .none

/-! ## Comparing with the overridden method -/

theorem conflict?_restated (hre : h.RestatedBy h') (rule : Rule) (m : MethodId)
    (hown : own.Same own') :
    Option.Rel Conflict.Same (rule.conflict? h m own) (rule.conflict? h' m own') := by
  unfold conflict?
  rw [hre.closestOverridden?_restated]
  cases h.closestOverridden? m with
  | none => exact .none
  | some overridden =>
      rw [Option.bind_some, Option.bind_some]
      exact rel_map (hown.violation? (rule.inheritedContract_restated hre overridden))
        fun _ _ hviolation => ⟨rfl, hviolation⟩

theorem outcome_compare_restated (hre : h.RestatedBy h') (rule : Rule) (m : MethodId)
    (hown : own.Same own') :
    (rule.compare h' m own').outcome = (rule.compare h m own).outcome := by
  rw [outcome_compare, outcome_compare, hre.closestOverridden?_restated]
  rcases cases_of_rel (rule.conflict?_restated hre m hown) with
    ⟨hconflict, hconflict'⟩ | ⟨_, _, hconflict, hconflict', -⟩
  · rw [hconflict, hconflict']
  · rw [hconflict, hconflict']
    rfl

/-! ## Whole checks -/

theorem conflictOf?_restated (hre : h.RestatedBy h') (hfacts : facts.Same facts') (rule : Rule)
    (m : MethodId) :
    Option.Rel Conflict.Same (rule.conflictOf? h facts m) (rule.conflictOf? h' facts' m) := by
  refine rel_bind (hre.method?_restated m) fun decl decl' hdecl => ?_
  rw [hdecl.owner]
  have hreading := ownContract_restated hre hfacts rule m decl.owner
  exact rel_bind (rule.comparedContract?_same hreading) fun _ _ hown =>
    rule.conflict?_restated hre m hown

/-- A declaration is at fault in both hierarchies or in none. -/
theorem faultOf?_restated (hre : h.RestatedBy h') (hfacts : facts.Same facts') (rule : Rule)
    (m : MethodId) :
    Option.Rel (fun _ _ => True) (rule.faultOf? h facts m) (rule.faultOf? h' facts' m) := by
  refine rel_bind (hre.method?_restated m) fun decl decl' hdecl => ?_
  rw [hdecl.owner]
  exact (ownContract_restated hre hfacts rule m decl.owner).ofReading?

theorem outcome_check_restated (hre : h.RestatedBy h') (hfacts : facts.Same facts') (rule : Rule)
    (m : MethodId) :
    (rule.check h' facts' m).outcome = (rule.check h facts m).outcome := by
  rcases cases_of_rel (hre.method?_restated m) with ⟨hm, hm'⟩ | ⟨decl, decl', hm, hm', hdecl⟩
  · simp [check, hm, hm']
  · rw [check_eq hm, check_eq hm', hdecl.owner]
    unfold verdict
    have hreading := ownContract_restated hre hfacts rule m decl.owner
    rcases cases_of_rel (rule.comparedContract?_same hreading) with
      ⟨hcompared, hcompared'⟩ | ⟨own, own', hcompared, hcompared', hown⟩
    · rw [hcompared, hcompared', Option.map_none, Option.map_none]
    · rw [hcompared, hcompared', Option.map_some, Option.map_some,
        rule.outcome_compare_restated hre m hown]

/-- The reports on a method are of the same kinds, in the same order. -/
theorem kinds_check_restated (hre : h.RestatedBy h') (hfacts : facts.Same facts') (rule : Rule)
    (m : MethodId) :
    (rule.check h' facts' m).diagnostics.map (fun d => (d.kind, d.location)) =
      (rule.check h facts m).diagnostics.map (fun d => (d.kind, d.location)) := by
  have hlocation : h'.location m = h.location m := by
    unfold location
    rw [hre.qualifiedName_restated]
  rw [diagnostics_check, diagnostics_check, reports, reports, List.map_append, List.map_append,
    List.map_map, List.map_map, List.map_map, List.map_map]
  congr 1
  · have hfaults := rule.faultOf?_restated hre hfacts m
    exact map_toList_of_rel hfaults fun _ _ _ => Prod.ext rfl hlocation
  · have hconflicts := rule.conflictOf?_restated hre hfacts m
    refine map_toList_of_rel hconflicts fun conflict conflict' hsame => Prod.ext ?_ hlocation
    show conflict'.violation.diagnosticKind = conflict.violation.diagnosticKind
    rw [diagnosticKind_eq, diagnosticKind_eq, hsame.violation.kind]

/-- The rule for postconditions that the standard configuration puts in force. -/
def ensuresNonNull : Rule := ⟨.postcondition, "EnsuresNonNull", .skipInheritance⟩

end Rule

namespace Config

open Hierarchy

variable {h h' : Hierarchy} {facts facts' : ExitFacts}

theorem kinds_checkMethod_restated (hre : h.RestatedBy h') (hfacts : facts.Same facts')
    (config : Config) (m : MethodId) :
    (config.checkMethod h' facts' m).map (fun d => (d.kind, d.location)) =
      (config.checkMethod h facts m).map (fun d => (d.kind, d.location)) := by
  unfold checkMethod
  rw [List.map_flatMap, List.map_flatMap]
  exact List.flatMap_congr fun rule _ => rule.kinds_check_restated hre hfacts m

/-- If annotations list the same values and the facts the same fields, in whatever order and
however often, then every configuration reports diagnostics of the same kinds at the same places
and in the same order, and every rule gets as far with every method.  What a rule reports of a
method are its fault and its conflict, and it finds a conflict in both hierarchies, with the same
method and over the same fields, or in none. -/
theorem checkAll_restated (hre : h.RestatedBy h') (hfacts : facts.Same facts') :
    (∀ config : Config,
      (config.checkAll h' facts').map (fun d => (d.kind, d.location)) =
        (config.checkAll h facts).map (fun d => (d.kind, d.location))) ∧
    (∀ (rule : Rule) m, (rule.check h' facts' m).outcome = (rule.check h facts m).outcome) ∧
    ∀ (rule : Rule) m,
      (rule.check h facts m).diagnostics =
        rule.reports h m (rule.faultOf? h facts m) (rule.conflictOf? h facts m) ∧
      (rule.check h' facts' m).diagnostics =
        rule.reports h' m (rule.faultOf? h' facts' m) (rule.conflictOf? h' facts' m) ∧
      Option.Rel Conflict.Same (rule.conflictOf? h facts m) (rule.conflictOf? h' facts' m) := by
  refine ⟨fun config => ?_, fun rule m => rule.outcome_check_restated hre hfacts m,
    fun rule m => ⟨Rule.diagnostics_check, Rule.diagnostics_check,
      rule.conflictOf?_restated hre hfacts m⟩⟩
  have hclass : ∀ c, (config.checkClass h' facts' c).map (fun d => (d.kind, d.location)) =
      (config.checkClass h facts c).map (fun d => (d.kind, d.location)) := by
    intro c
    unfold checkClass
    rw [List.map_flatMap, List.map_flatMap, hre.declaredMethods_restated]
    exact List.flatMap_congr fun m _ => kinds_checkMethod_restated hre hfacts config m
  unfold checkAll
  rw [List.map_flatMap, List.map_flatMap, hre.classIds_restated]
  exact List.flatMap_congr fun c _ => hclass c

/-- `Sub.run` ensures less than `Base.run`, and `Sub.stop` lists two unknown fields. -/
def listed : List Operation := [
  .addClass "Base", .addClass "Sub", .setSuperclass ⟨1⟩ ⟨0⟩,
  .addField ⟨0⟩ ⟨"a", false⟩, .addField ⟨0⟩ ⟨"b", false⟩,
  .addMethod ⟨0⟩ ⟨⟨"run", []⟩, false, [⟨"EnsuresNonNull", ["a", "b"]⟩]⟩,
  .addMethod ⟨1⟩ ⟨⟨"run", []⟩, false, []⟩,
  .addMethod ⟨1⟩ ⟨⟨"stop", []⟩, false, [⟨"RequiresNonNull", ["x", "y"]⟩]⟩]

/-- The same hierarchy with the lists in another order and with repetitions. -/
def listedAgain : List Operation := [
  .addClass "Base", .addClass "Sub", .setSuperclass ⟨1⟩ ⟨0⟩,
  .addField ⟨0⟩ ⟨"a", false⟩, .addField ⟨0⟩ ⟨"b", false⟩,
  .addMethod ⟨0⟩ ⟨⟨"run", []⟩, false, [⟨"EnsuresNonNull", ["b", "a", "b"]⟩]⟩,
  .addMethod ⟨1⟩ ⟨⟨"run", []⟩, false, []⟩,
  .addMethod ⟨1⟩ ⟨⟨"stop", []⟩, false, [⟨"RequiresNonNull", ["y", "x"]⟩]⟩]

/-- These fields are known to be non-null at the exits of `Base.run`. -/
def knownOfRun (fields : List String) : ExitFacts :=
  (FactTable.empty.insert ⟨0⟩ (NameSet.ofList fields)).facts

theorem restatedBy_listedAgain : (after listed).RestatedBy (after listedAgain) := by
  have hmethods : (after listed).methods.toList = [
      ⟨⟨⟨"run", []⟩, false, [⟨"EnsuresNonNull", ["a", "b"]⟩]⟩, ⟨0⟩, ⟨0⟩⟩,
      ⟨⟨⟨"run", []⟩, false, []⟩, ⟨1⟩, ⟨1⟩⟩,
      ⟨⟨⟨"stop", []⟩, false, [⟨"RequiresNonNull", ["x", "y"]⟩]⟩, ⟨2⟩, ⟨1⟩⟩] := by cbv
  have hmethods' : (after listedAgain).methods.toList = [
      ⟨⟨⟨"run", []⟩, false, [⟨"EnsuresNonNull", ["b", "a", "b"]⟩]⟩, ⟨0⟩, ⟨0⟩⟩,
      ⟨⟨⟨"run", []⟩, false, []⟩, ⟨1⟩, ⟨1⟩⟩,
      ⟨⟨⟨"stop", []⟩, false, [⟨"RequiresNonNull", ["y", "x"]⟩]⟩, ⟨2⟩, ⟨1⟩⟩] := by cbv
  have hclasses : (after listedAgain).classes = (after listed).classes := by cbv
  refine ⟨hclasses, ?_⟩
  rw [hmethods, hmethods']
  refine .cons ?_ (.cons ?_ (.cons ?_ .nil))
  · refine ⟨rfl, rfl, rfl, rfl, .cons ⟨rfl, fun value => ?_⟩ .nil⟩
    simp only [List.mem_cons, List.not_mem_nil, or_false]
    tauto
  · exact ⟨rfl, rfl, rfl, rfl, .nil⟩
  · refine ⟨rfl, rfl, rfl, rfl, .cons ⟨rfl, fun value => ?_⟩ .nil⟩
    simp only [List.mem_cons, List.not_mem_nil, or_false]
    tauto

theorem same_knownOfRun : (knownOfRun ["a", "b"]).Same (knownOfRun ["b", "a"]) := by
  intro m
  unfold knownOfRun
  by_cases hm : m = ⟨0⟩
  · rw [hm, FactTable.facts_insert_self, FactTable.facts_insert_self]
    refine .some fun f => ?_
    simp only [NameSet.mem_ofList, List.mem_cons, List.not_mem_nil, or_false]
    tauto
  · rw [FactTable.facts_insert_of_ne _ hm, FactTable.facts_insert_of_ne _ hm]
    exact .none

/-- `Sub.run` conflicts with `Base.run` in both hierarchies, over the same fields in another
order. -/
theorem checkAll_restated_listedAgain :
    (after listed).RestatedBy (after listedAgain) ∧
    (knownOfRun ["a", "b"]).Same (knownOfRun ["b", "a"]) ∧
    (Config.standard.checkAll (after listedAgain) (knownOfRun ["b", "a"])).map
        (fun d => (d.kind, d.location)) =
      (Config.standard.checkAll (after listed) (knownOfRun ["a", "b"])).map
        (fun d => (d.kind, d.location)) ∧
    (Rule.ensuresNonNull.check (after listedAgain) (knownOfRun ["b", "a"]) ⟨1⟩).outcome =
      (Rule.ensuresNonNull.check (after listed) (knownOfRun ["a", "b"]) ⟨1⟩).outcome ∧
    Rule.ensuresNonNull.conflictOf? (after listed) (knownOfRun ["a", "b"]) ⟨1⟩ =
      some ⟨⟨0⟩, .postcondition, NameSet.ofList ["a", "b"]⟩ ∧
    Rule.ensuresNonNull.conflictOf? (after listedAgain) (knownOfRun ["b", "a"]) ⟨1⟩ =
      some ⟨⟨0⟩, .postcondition, NameSet.ofList ["b", "a"]⟩ ∧
    Option.Rel Conflict.Same
      (Rule.ensuresNonNull.conflictOf? (after listed) (knownOfRun ["a", "b"]) ⟨1⟩)
      (Rule.ensuresNonNull.conflictOf? (after listedAgain) (knownOfRun ["b", "a"]) ⟨1⟩) := by
  obtain ⟨hreports, houtcomes, hconflicts⟩ :=
    checkAll_restated restatedBy_listedAgain same_knownOfRun
  refine ⟨restatedBy_listedAgain, same_knownOfRun, hreports Config.standard,
    houtcomes Rule.ensuresNonNull ⟨1⟩, ?_, ?_, (hconflicts Rule.ensuresNonNull ⟨1⟩).2.2⟩
  · cbv
  · cbv

end Config

end FieldContracts
