import FieldContracts.Proofs.Check.Silence
import FieldContracts.Proofs.Hierarchy.Shadowing
import Mathlib

/-!
# Names shared by a method and the one it overrides

Contracts are compared by the bare names of fields, while each declaration is read with the fields
that its own class sees.  A contract that is stated again further down is therefore accepted, whatever
the classes in between declare (`restated_contract_consistent`).  What is accepted need not speak of
the same fields, though: `names_of_acceptedOverride` says when it does, and
`accepted_under_redeclared_name` is a case in which it does not.
-/

namespace FieldContracts

open Hierarchy

/-- The method belongs to class `c`, and its declaration lists `raw`. -/
structure Rule.Lists (rule : Rule) (h : Hierarchy) (m : MethodId) (c : ClassId) (raw : NameSet) :
    Prop where
  owner : ∃ decl, h.method? m = some decl ∧ decl.owner = c
  values : h.annotationValues m rule.simpleName = some raw

namespace Hierarchy

variable {h : Hierarchy} {a d : ClassId} {raw fields : NameSet}

/-! ## Contracts stated again -/

/-- Simple names of fields that the class sees are valid entries and name themselves, whether the
fields are static or not. -/
theorem validate_of_simple (hwf : h.WellFormed) (hlisted : fields.isEmpty = false)
    (hsimple : ∀ f ∈ fields, f ≠ "" ∧ '.' ∉ f.toList)
    (hseen : ∀ f ∈ fields, ∃ r, h.NearestField f d r) : h.validate d fields = .ok fields := by
  have hread : ∀ f ∈ fields.toList, h.entryField d f = .ok f := by
    intro f hf
    obtain ⟨hne, hdot⟩ := hsimple f hf
    refine (entryField_eq_ok_iff hwf).mpr ⟨fun s hs => ?_, ?_⟩
    · rw [hs] at hdot
      simp at hdot
    · by_cases hstatic : h.NamesStatic d f
      · exact .static hstatic
      · exact .plain hstatic (Or.inl rfl) hne hdot (hseen f hf)
  refine validate_eq_ok_iff.mpr ⟨hlisted, fields.toList, List.map_congr_left hread, ?_⟩
  exact (NameSet.ofList_toList fields).symm

/-- A valid declaration lists some field. -/
theorem isEmpty_of_validate (hvalid : h.validate a raw = .ok fields) : fields.isEmpty = false := by
  obtain ⟨hlisted, names, hnames, rfl⟩ := validate_eq_ok_iff.mp hvalid
  refine Rule.ofList_isEmpty_eq_false_iff.mpr ?_
  rintro rfl
  have hnone : raw.toList = [] := by simpa using hnames
  simp [NameSet.isEmpty, hnone] at hlisted

/-- The fields of a valid declaration, stated again further down the chain, are valid there as they
stand. -/
theorem validate_restated (hwf : h.WellFormed) (hchain : h.OnChain d a)
    (hvalid : h.validate a raw = .ok fields)
    (hsimple : ∀ f ∈ fields, f ≠ "" ∧ '.' ∉ f.toList) : h.validate d fields = .ok fields :=
  validate_of_simple hwf (isEmpty_of_validate hvalid) hsimple fun _ hf =>
    exists_nearestField_of_onChain hchain (exists_nearestField_of_mem_validate hwf hvalid hf)

end Hierarchy

namespace Rule

variable {rule : Rule} {h : Hierarchy} {facts : ExitFacts} {m m' : MethodId} {c d : ClassId}
  {raw fields : NameSet}

/-- The contract of an overridden method that lists `raw`. -/
theorem Lists.inheritedContract (hlists : rule.Lists h m c raw) :
    rule.inheritedContract h m = Contract.declared rule.kind (trimReceivers raw) := by
  rw [Rule.inheritedContract, hlists.values]
  rfl

/-- A method is consistent if its declaration is valid, is covered by what is known of its body, and
states the fields of the closest method that it overrides. -/
theorem check_of_same_fields (hlists : rule.Lists h m d raw) (hvalid : h.validate d raw = .ok fields)
    (hcovered : (Contract.declared rule.kind fields).unensured? (facts m) = none)
    (hclosest : h.closestOverridden? m = some m')
    (hsame : (rule.inheritedContract h m').fields = fields) :
    rule.check h facts m = ⟨.consistent, []⟩ := by
  obtain ⟨decl, hm, rfl⟩ := hlists.owner
  have hown : rule.ownContract h facts m decl.owner = .ok (Contract.declared rule.kind fields) :=
    ownContract_eq_ok_iff.mpr (Or.inr ⟨raw, fields, hlists.values, hvalid, rfl, hcovered⟩)
  have hagree : (Contract.declared rule.kind fields).violation? (rule.inheritedContract h m') =
      none := by
    rw [Contract.violation?_eq_none_iff, hsame]
    exact .refl _ _
  have hcompare : rule.compare h m (Contract.declared rule.kind fields) = ⟨.consistent, []⟩ := by
    simp [compare, hclosest, hagree]
  rw [check, hm]
  simp only [hown, hcompare]

end Rule

section Restating

variable {h : Hierarchy} {a d : ClassId} {raw fields : NameSet}

/-- A contract that is valid in a class may be stated again, by the names of its fields, in that
class and in every class below it.  It is read there as it stands, and a method that states it is
consistent with the method that it overrides, whatever the policy for malformed declarations is.
For a postcondition this supposes that nothing is known of the exits of the method. -/
theorem restated_contract_consistent (hreach : h.Reachable) (hchain : h.OnChain d a)
    (hvalid : h.validate a raw = .ok fields)
    (hsimple : ∀ f ∈ fields, f ≠ "" ∧ '.' ∉ f.toList) :
    h.validate d fields = .ok fields ∧
      ∀ (rule : Rule) (facts : ExitFacts) (m m' : MethodId),
        rule.Lists h m d fields → h.closestOverridden? m = some m' → rule.Lists h m' a raw →
        (rule.kind = .precondition ∨ facts m = none) →
          rule.check h facts m = ⟨.consistent, []⟩ := by
  have hwf : h.WellFormed := hreach.wellFormed
  have hrestated : h.validate d fields = .ok fields := validate_restated hwf hchain hvalid hsimple
  refine ⟨hrestated, fun rule facts m m' hown hclosest hinherited hknown => ?_⟩
  have hcovered : (Contract.declared rule.kind fields).unensured? (facts m) = none := by
    refine Contract.unensured?_declared_eq_none_iff.mpr fun hpost ensured hensured => ?_
    rcases hknown with hpre | hnone
    · rw [hpost] at hpre
      cases hpre
    · rw [hnone] at hensured
      cases hensured
  -- A static entry is one of the fields itself, so cutting the entries at their dots is harmless.
  have hdotless : h.StaticEntriesDotless a raw := fun entry hentry hstatic =>
    (hsimple entry (mem_of_static_entry hwf hvalid hentry hstatic)).2
  have hsame : (rule.inheritedContract h m').fields = fields := by
    rw [hinherited.inheritedContract]
    exact (eq_trimReceivers_of_validate hwf hdotless hvalid).symm
  exact Rule.check_of_same_fields hown hrestated hcovered hclosest hsame

/-- `Base` requires two fields, of which the class in between declares one again as static; `Leaf`
requires the same two. -/
def restatedBelow : List Operation := [
  .addClass "Base", .addField ⟨0⟩ ⟨"a", false⟩, .addField ⟨0⟩ ⟨"b", false⟩,
  .addMethod ⟨0⟩ ⟨⟨"run", []⟩, false, [⟨"RequiresNonNull", ["this.a", "b"]⟩]⟩,
  .addClass "Mid", .setSuperclass ⟨1⟩ ⟨0⟩, .addField ⟨1⟩ ⟨"a", true⟩,
  .addClass "Leaf", .setSuperclass ⟨2⟩ ⟨1⟩,
  .addMethod ⟨2⟩ ⟨⟨"run", []⟩, false, [⟨"RequiresNonNull", ["a", "b"]⟩]⟩]

theorem restated_contract_consistent_redeclaredStatic :
    (after restatedBelow).validate ⟨0⟩ (NameSet.ofList ["this.a", "b"]) =
        .ok (NameSet.ofList ["a", "b"]) ∧
      (after restatedBelow).validate ⟨2⟩ (NameSet.ofList ["a", "b"]) =
        .ok (NameSet.ofList ["a", "b"]) ∧
      Rule.requiresNonNull.check (after restatedBelow) ExitFacts.unknown ⟨1⟩ =
        ⟨.consistent, []⟩ := by
  have hreach : (after restatedBelow).Reachable := ⟨restatedBelow, rfl⟩
  have hmid : (after restatedBelow).superclass? ⟨2⟩ = some ⟨1⟩ := by cbv
  have hbase : (after restatedBelow).superclass? ⟨1⟩ = some ⟨0⟩ := by cbv
  have hchain : (after restatedBelow).OnChain ⟨2⟩ ⟨0⟩ := .head hmid (.single hbase)
  have hvalid : (after restatedBelow).validate ⟨0⟩ (NameSet.ofList ["this.a", "b"]) =
      .ok (NameSet.ofList ["a", "b"]) := by cbv
  have hsimple : ∀ f ∈ NameSet.ofList ["a", "b"], f ≠ "" ∧ '.' ∉ f.toList := by
    intro f hf
    rcases List.mem_pair.mp (NameSet.mem_ofList.mp hf) with rfl | rfl
    · decide
    · decide
  obtain ⟨hrestated, hconsistent⟩ := restated_contract_consistent hreach hchain hvalid hsimple
  refine ⟨hvalid, hrestated, hconsistent _ _ ⟨1⟩ ⟨0⟩ ?_ ?_ ?_ (Or.inl rfl)⟩
  · exact ⟨⟨_, by cbv, rfl⟩, by cbv⟩
  · cbv
  · exact ⟨⟨_, by cbv, rfl⟩, by cbv⟩

end Restating

/-! ## What an accepted override speaks of -/

/-- The fields on which the acceptance of an override rests: all that it requires, or all that the
overridden method ensures. -/
def ContractKind.restsOn (kind : ContractKind) (own overridden : NameSet) : NameSet :=
  match kind with
  | .precondition => own
  | .postcondition => overridden

/-- The method `m` of class `d` overrides the method `m'` of a superclass `a`.  They list `raw` and
`raw'`, both valid; `m` declares `fields` by that, and the comparison accepts it. -/
structure Rule.AcceptedOverride (rule : Rule) (h : Hierarchy) (m m' : MethodId) (d a : ClassId)
    (raw raw' fields : NameSet) : Prop where
  own : rule.Lists h m d raw
  valid : h.validate d raw = .ok fields
  overridden : rule.Lists h m' a raw'
  overriddenValid : ∃ fields', h.validate a raw' = .ok fields'
  closest : h.closestOverridden? m = some m'
  chain : h.SuperclassAbove d a
  accepted : (Contract.declared rule.kind fields).violation? (rule.inheritedContract h m') = none

section Accepted

variable {rule : Rule} {h : Hierarchy} {m m' : MethodId} {a d : ClassId}
  {raw raw' fields : NameSet} {f : String}

/-- What the acceptance rests on stands in both of the compared contracts. -/
theorem Rule.AcceptedOverride.mem_of_mem_restsOn
    (haccepted : rule.AcceptedOverride h m m' d a raw raw' fields)
    (hf : f ∈ rule.kind.restsOn fields (trimReceivers raw')) :
    f ∈ fields ∧ f ∈ trimReceivers raw' := by
  have hagree : rule.kind.Substitutable (· ∈ fields) (· ∈ trimReceivers raw') := by
    have haccepts := haccepted.accepted
    rw [haccepted.overridden.inheritedContract, Contract.violation?_eq_none_iff] at haccepts
    exact haccepts
  cases hkind : rule.kind with
  | precondition =>
      rw [hkind] at hf hagree
      exact ⟨hf, hagree f hf⟩
  | postcondition =>
      rw [hkind] at hf hagree
      exact ⟨hagree f hf, hf⟩

/-- Every name on which the acceptance of an override rests leads, from the class of the override,
to some field.  From the class of the overridden method it leads to the same field exactly if no
class below that one declares the name again; otherwise the field is declared below.  Contracts that
list no static field under a name with a dot always speak of fields that both classes see. -/
theorem names_of_acceptedOverride (hreach : h.Reachable)
    (haccepted : rule.AcceptedOverride h m m' d a raw raw' fields)
    (hf : f ∈ rule.kind.restsOn fields (trimReceivers raw')) :
    ∃ r, h.resolveField d f = some r ∧
      (h.resolveField a f = some r ↔ ¬ h.RedeclaredBelow f d a) ∧
      (h.RedeclaredBelow f d a → h.OnChain d r.owner ∧ h.SuperclassAbove r.owner a) ∧
      (h.StaticEntriesDotless a raw' → ∃ r', h.resolveField a f = some r') := by
  have hwf : h.WellFormed := hreach.wellFormed
  obtain ⟨hown, hinherited⟩ := haccepted.mem_of_mem_restsOn hf
  obtain ⟨r, hnear⟩ := exists_nearestField_of_mem_validate hwf haccepted.valid hown
  have hd : h.resolveField d f = some r := (resolveField_eq_some_iff hwf).mpr hnear
  refine ⟨r, hd, ?_, fun hredeclared => ?_, fun hdotless => ?_⟩
  · rw [← resolveField_eq_iff hwf haccepted.chain, hd, eq_comm]
  · obtain ⟨r', hd', hlower⟩ := exists_resolveField_of_redeclaredBelow hwf hredeclared
    obtain rfl : r = r' := Option.some.inj (hd.symm.trans hd')
    exact hlower
  · obtain ⟨fields', hvalid'⟩ := haccepted.overriddenValid
    rw [← eq_trimReceivers_of_validate hwf hdotless hvalid'] at hinherited
    obtain ⟨r', hnear'⟩ := exists_nearestField_of_mem_validate hwf hvalid' hinherited
    exact ⟨r', (resolveField_eq_some_iff hwf).mpr hnear'⟩

/-- `Base` ensures two fields, of which the class in between declares one again; `Leaf` ensures the
same two names. -/
def redeclaredBetween : List Operation := [
  .addClass "Base", .addField ⟨0⟩ ⟨"a", false⟩, .addField ⟨0⟩ ⟨"b", false⟩,
  .addMethod ⟨0⟩ ⟨⟨"run", []⟩, false, [⟨"EnsuresNonNull", ["this.a", "b"]⟩]⟩,
  .addClass "Mid", .setSuperclass ⟨1⟩ ⟨0⟩, .addField ⟨1⟩ ⟨"b", false⟩,
  .addClass "Leaf", .setSuperclass ⟨2⟩ ⟨1⟩,
  .addMethod ⟨2⟩ ⟨⟨"run", []⟩, false, [⟨"EnsuresNonNull", ["a", "b"]⟩]⟩]

/-- The override of `Leaf` is accepted. -/
theorem acceptedOverride_redeclaredBetween :
    Rule.AcceptedOverride ⟨.postcondition, "EnsuresNonNull", .skipInheritance⟩
      (after redeclaredBetween) ⟨1⟩ ⟨0⟩ ⟨2⟩ ⟨0⟩ (NameSet.ofList ["a", "b"])
      (NameSet.ofList ["this.a", "b"]) (NameSet.ofList ["a", "b"]) where
  own := ⟨⟨_, by cbv, rfl⟩, by cbv⟩
  valid := by cbv
  overridden := ⟨⟨_, by cbv, rfl⟩, by cbv⟩
  overriddenValid := ⟨NameSet.ofList ["a", "b"], by cbv⟩
  closest := by cbv
  chain := by
    have hmid : (after redeclaredBetween).superclass? ⟨2⟩ = some ⟨1⟩ := by cbv
    have hbase : (after redeclaredBetween).superclass? ⟨1⟩ = some ⟨0⟩ := by cbv
    exact .head hmid (.single hbase)
  accepted := by cbv

theorem names_of_acceptedOverride_redeclaredBetween :
    "b" ∈ ContractKind.postcondition.restsOn (NameSet.ofList ["a", "b"])
        (trimReceivers (NameSet.ofList ["this.a", "b"])) ∧
      (after redeclaredBetween).RedeclaredBelow "b" ⟨2⟩ ⟨0⟩ ∧
      ∃ r, (after redeclaredBetween).resolveField ⟨2⟩ "b" = some r ∧
        (after redeclaredBetween).resolveField ⟨0⟩ "b" ≠ some r ∧
        (after redeclaredBetween).OnChain ⟨2⟩ r.owner ∧
        (after redeclaredBetween).SuperclassAbove r.owner ⟨0⟩ := by
  have hreach : (after redeclaredBetween).Reachable := ⟨redeclaredBetween, rfl⟩
  have hmem : "b" ∈ ContractKind.postcondition.restsOn (NameSet.ofList ["a", "b"])
      (trimReceivers (NameSet.ofList ["this.a", "b"])) := by decide
  have hmid : (after redeclaredBetween).superclass? ⟨2⟩ = some ⟨1⟩ := by cbv
  have hbase : (after redeclaredBetween).superclass? ⟨1⟩ = some ⟨0⟩ := by cbv
  have hdeclared : (after redeclaredBetween).declaredField? ⟨1⟩ "b" = some ⟨"b", false⟩ := by cbv
  have hredeclared : (after redeclaredBetween).RedeclaredBelow "b" ⟨2⟩ ⟨0⟩ :=
    ⟨⟨1⟩, _, .single hmid, .single hbase, hdeclared⟩
  obtain ⟨r, hd, hsame, hlower, -⟩ :=
    names_of_acceptedOverride hreach acceptedOverride_redeclaredBetween hmem
  obtain ⟨hchain, habove⟩ := hlower hredeclared
  exact ⟨hmem, hredeclared, r, hd, fun ha => hsame.mp ha hredeclared, hchain, habove⟩

/-- The acceptance rests on the name `b`, under which the two classes see different fields. -/
theorem accepted_under_redeclared_name :
    (after redeclaredBetween).Reachable ∧
      Rule.AcceptedOverride ⟨.postcondition, "EnsuresNonNull", .skipInheritance⟩
        (after redeclaredBetween) ⟨1⟩ ⟨0⟩ ⟨2⟩ ⟨0⟩ (NameSet.ofList ["a", "b"])
        (NameSet.ofList ["this.a", "b"]) (NameSet.ofList ["a", "b"]) ∧
      "b" ∈ ContractKind.postcondition.restsOn (NameSet.ofList ["a", "b"])
        (trimReceivers (NameSet.ofList ["this.a", "b"])) ∧
      (after redeclaredBetween).resolveField ⟨2⟩ "b" = some ⟨⟨1⟩, ⟨"b", false⟩⟩ ∧
      (after redeclaredBetween).resolveField ⟨0⟩ "b" = some ⟨⟨0⟩, ⟨"b", false⟩⟩ := by
  refine ⟨⟨redeclaredBetween, rfl⟩, acceptedOverride_redeclaredBetween, ?_, ?_, ?_⟩
  · decide
  · cbv
  · cbv

end Accepted

end FieldContracts
