import FieldContracts.Proofs.Check.Stages
import FieldContracts.Proofs.Contract.Declaration
import FieldContracts.Proofs.Hierarchy.OverrideSearch

/-!
# When a rule reports nothing

A rule reports nothing of a method if the method's declaration holds (`Rule.DeclarationHolds`) and
its contract may stand in for that of the overridden method (`ContractKind.Substitutable`).
`check_diagnostics_eq_nil_iff` is the step through the checker, `exists_ownContract_iff` and
`mem_ownContract_iff` the reading of a declaration, and `check_silent_iff` puts them together with
the search for the overridden method.
-/

namespace FieldContracts

/-! ## The first annotation of a name -/

/-- The annotation is written as `simple`, bare or after a package and a dot. -/
def Annotation.Named (simple : String) (a : Annotation) : Prop :=
  a.name = simple ∨ '.' :: simple.toList <:+ a.name.toList

/-- The annotation `a` is the first of the list that is written as `simple`. -/
def FirstNamed (simple : String) (annotations : List Annotation) (a : Annotation) : Prop :=
  ∃ before after, annotations = before ++ a :: after ∧ a.Named simple ∧
    ∀ b ∈ before, ¬ b.Named simple

theorem find?_isNamed_eq_some_iff {simple : String} {annotations : List Annotation}
    {a : Annotation} :
    annotations.find? (·.isNamed simple) = some a ↔ FirstNamed simple annotations a := by
  rw [List.find?_eq_some_iff_append, FirstNamed]
  simp only [Bool.not_eq_true', ← Bool.not_eq_true, Annotation.isNamed_iff, Annotation.Named]
  constructor
  · rintro ⟨hnamed, before, after, hsplit, hbefore⟩
    exact ⟨before, after, hsplit, hnamed, hbefore⟩
  · rintro ⟨before, after, hsplit, hnamed, hbefore⟩
    exact ⟨hnamed, before, after, hsplit, hbefore⟩

/-! ## Substitutable contracts -/

/-- An override with the fields `own` may stand in for a method with the fields `inherited`: it
requires no further field, or ensures each of them. -/
def ContractKind.Substitutable (kind : ContractKind) (own inherited : String → Prop) : Prop :=
  match kind with
  | .precondition => ∀ f, own f → inherited f
  | .postcondition => ∀ f, inherited f → own f

theorem ContractKind.Substitutable.refl (kind : ContractKind) (fields : String → Prop) :
    kind.Substitutable fields fields := by
  cases kind with
  | precondition => exact fun _ hf => hf
  | postcondition => exact fun _ hf => hf

theorem ContractKind.Substitutable.trans {kind : ContractKind} {own middle inherited : String → Prop}
    (hlower : kind.Substitutable own middle) (hupper : kind.Substitutable middle inherited) :
    kind.Substitutable own inherited := by
  cases kind with
  | precondition => exact fun f hf => hupper f (hlower f hf)
  | postcondition => exact fun f hf => hlower f (hupper f hf)

theorem Contract.violation?_eq_none_iff {own overridden : Contract} :
    own.violation? overridden = none ↔
      own.kind.Substitutable (· ∈ own.fields) (· ∈ overridden.fields) := by
  cases hkind : own.kind with
  | precondition => exact violation?_precondition_eq_none_iff hkind
  | postcondition => exact violation?_postcondition_eq_none_iff hkind

/-- Only a postcondition can fail to be covered by what is known. -/
theorem Contract.unensured?_declared_eq_none_iff {kind : ContractKind} {fields : NameSet}
    {known : Option NameSet} :
    (Contract.declared kind fields).unensured? known = none ↔
      (kind = .postcondition → ∀ ensured, known = some ensured → ∀ f ∈ fields, f ∈ ensured) := by
  cases kind with
  | precondition => simp [unensured?, declared]
  | postcondition =>
      cases known with
      | none => simp [unensured?, declared]
      | some ensured =>
          have hcovered : (Contract.declared .postcondition fields).kind = .postcondition := rfl
          rw [Contract.unensured?_eq_none_iff hcovered]
          simp [declared]

namespace Rule

open Hierarchy

variable {rule : Rule} {h : Hierarchy} {facts : ExitFacts} {m : MethodId} {decl : MethodDecl}
  {own : Contract}

/-! ## The steps of the check -/

theorem compare_diagnostics_eq_nil_iff :
    (rule.compare h m own).diagnostics = [] ↔
      ∀ m', h.closestOverridden? m = some m' →
        own.kind.Substitutable (· ∈ own.fields) (· ∈ (rule.inheritedContract h m').fields) := by
  rw [diagnostics_compare, List.map_eq_nil_iff, Option.toList_eq_nil_iff, conflict?,
    Option.bind_eq_none_iff]
  simp only [Option.map_eq_none_iff, Contract.violation?_eq_none_iff]

/-- A check is silent if the declaration has no fault and the comparison is silent. -/
theorem check_diagnostics_eq_nil_iff (hm : h.method? m = some decl) :
    (rule.check h facts m).diagnostics = [] ↔
      ∃ own, rule.ownContract h facts m decl.owner = .ok own ∧
        (rule.compare h m own).diagnostics = [] := by
  rw [check_eq hm]
  cases hown : rule.ownContract h facts m decl.owner with
  | ok own => simp [verdict, reports, ContractFault.ofReading?, comparedContract?,
      diagnostics_compare]
  | error fault => simp [verdict, reports, ContractFault.ofReading?]

/-- The method's own contract is empty or states a valid declaration that the body keeps. -/
theorem ownContract_eq_ok_iff {c : ClassId} :
    rule.ownContract h facts m c = .ok own ↔
      (h.annotationValues m rule.simpleName = none ∧ own = Contract.implicit rule.kind) ∨
        ∃ raw fields, h.annotationValues m rule.simpleName = some raw ∧
          h.validate c raw = .ok fields ∧ own = Contract.declared rule.kind fields ∧
            own.unensured? (facts m) = none := by
  unfold ownContract
  cases h.annotationValues m rule.simpleName with
  | none => simp [eq_comm]
  | some raw =>
      cases hvalid : h.validate c raw with
      | error error => simp [hvalid]
      | ok fields =>
          cases hgap : (Contract.declared rule.kind fields).unensured? (facts m) with
          | none =>
              simp only [hvalid, hgap, Except.ok.injEq, reduceCtorEq, false_and, false_or]
              constructor
              · rintro rfl
                exact ⟨raw, fields, rfl, hvalid, rfl, hgap⟩
              · rintro ⟨raw', fields', hraw, hvalid', rfl, -⟩
                obtain rfl := Option.some.inj hraw
                rw [hvalid] at hvalid'
                rw [Except.ok.inj hvalid']
          | some gap =>
              simp only [hvalid, hgap, reduceCtorEq, false_and, false_or, false_iff]
              rintro ⟨raw', fields', hraw, hvalid', rfl, hnone⟩
              obtain rfl := Option.some.inj hraw
              rw [hvalid] at hvalid'
              rw [← Except.ok.inj hvalid', hgap] at hnone
              exact absurd hnone (by simp)

theorem kind_of_ownContract {c : ClassId} (hown : rule.ownContract h facts m c = .ok own) :
    own.kind = rule.kind := by
  rcases ownContract_eq_ok_iff.mp hown with ⟨-, rfl⟩ | ⟨_, _, _, _, rfl, _⟩
  · rfl
  · rfl

/-! ## What a declaration says -/

/-- The fields that a method's own declaration names, as its class sees them. -/
def OwnField (rule : Rule) (h : Hierarchy) (decl : MethodDecl) (f : String) : Prop :=
  ∃ a, FirstNamed rule.simpleName decl.annotations a ∧
    ∃ entry ∈ a.values, h.EntryNames decl.owner entry f

/-- The fields that a declaration names when its entries are taken at their word. -/
def InheritedField (rule : Rule) (decl : MethodDecl) (f : String) : Prop :=
  ∃ a, FirstNamed rule.simpleName decl.annotations a ∧ ∃ entry ∈ a.values, f = lastSegment entry

/-- There is no declaration, or it lists some entry, each entry is valid, and a postcondition is
covered by what is known at the exits of the method. -/
def DeclarationHolds (rule : Rule) (h : Hierarchy) (facts : ExitFacts) (m : MethodId)
    (decl : MethodDecl) : Prop :=
  ∀ a, FirstNamed rule.simpleName decl.annotations a →
    a.values ≠ [] ∧ (∀ entry ∈ a.values, h.ValidEntry decl.owner entry) ∧
      (rule.kind = .postcondition → ∀ known, facts m = some known →
        ∀ entry ∈ a.values, ∀ f, h.EntryNames decl.owner entry f → f ∈ known)

theorem annotationValues_eq (hm : h.method? m = some decl) (simple : String) :
    h.annotationValues m simple =
      (decl.annotations.find? (·.isNamed simple)).map fun a => NameSet.ofList a.values := by
  simp [Hierarchy.annotationValues, hm, MethodSpec.annotationValues]

theorem ofList_isEmpty_eq_false_iff {names : List String} :
    (NameSet.ofList names).isEmpty = false ↔ names ≠ [] := by
  rw [← Bool.not_eq_true, NameSet.isEmpty_iff, ne_eq, List.eq_nil_iff_forall_not_mem]
  simp only [NameSet.mem_ofList]

/-- The values of an annotation that is looked up are those of the first one of its name. -/
theorem annotationValues_eq_some_iff (hm : h.method? m = some decl) {simple : String}
    {raw : NameSet} :
    h.annotationValues m simple = some raw ↔
      ∃ a, FirstNamed simple decl.annotations a ∧ NameSet.ofList a.values = raw := by
  rw [annotationValues_eq hm, Option.map_eq_some_iff]
  simp only [find?_isNamed_eq_some_iff]

/-- The method has a contract of its own exactly if its declaration holds. -/
theorem exists_ownContract_iff (hwf : h.WellFormed) (hm : h.method? m = some decl) :
    (∃ own, rule.ownContract h facts m decl.owner = .ok own) ↔
      rule.DeclarationHolds h facts m decl := by
  constructor
  · rintro ⟨own, hown⟩ a ha
    have hvalues := (annotationValues_eq_some_iff hm).mpr ⟨a, ha, rfl⟩
    rcases ownContract_eq_ok_iff.mp hown with ⟨hnone, -⟩ | ⟨raw, fields, hraw, hvalid, rfl, hgap⟩
    · rw [hvalues] at hnone
      exact absurd hnone (by simp)
    · obtain rfl := Option.some.inj (hvalues.symm.trans hraw)
      obtain ⟨hne, hall⟩ := exists_validate_eq_ok_iff.mp ⟨fields, hvalid⟩
      have hentries : ∀ entry ∈ a.values, h.ValidEntry decl.owner entry := fun entry hentry =>
        (validEntry_iff hwf).mpr (hall entry (NameSet.mem_ofList.mpr hentry))
      refine ⟨ofList_isEmpty_eq_false_iff.mp hne, hentries, fun hkind known hknown => ?_⟩
      intro entry hentry f hf
      refine Contract.unensured?_declared_eq_none_iff.mp hgap hkind known hknown f ?_
      refine (mem_of_validate_iff hvalid).mpr ⟨entry, NameSet.mem_ofList.mpr hentry, ?_⟩
      exact (entryField_eq_ok_iff hwf).mpr ⟨(hentries entry hentry).1, hf⟩
  · intro hholds
    cases hfind : decl.annotations.find? (·.isNamed rule.simpleName) with
    | none =>
        have hnone : h.annotationValues m rule.simpleName = none := by
          rw [annotationValues_eq hm, hfind]
          rfl
        exact ⟨_, ownContract_eq_ok_iff.mpr (Or.inl ⟨hnone, rfl⟩)⟩
    | some a =>
        have ha : FirstNamed rule.simpleName decl.annotations a :=
          find?_isNamed_eq_some_iff.mp hfind
        obtain ⟨hne, hentries, hkept⟩ := hholds a ha
        obtain ⟨fields, hvalid⟩ := exists_validate_eq_ok_iff.mpr
          ⟨ofList_isEmpty_eq_false_iff.mpr hne, fun entry hentry =>
            (validEntry_iff hwf).mp (hentries entry (NameSet.mem_ofList.mp hentry))⟩
        have hvalues := (annotationValues_eq_some_iff hm).mpr ⟨a, ha, rfl⟩
        refine ⟨_, ownContract_eq_ok_iff.mpr (Or.inr ⟨_, fields, hvalues, hvalid, rfl, ?_⟩)⟩
        refine Contract.unensured?_declared_eq_none_iff.mpr fun hkind known hknown f hf => ?_
        obtain ⟨entry, hentry, hok⟩ := (mem_of_validate_iff hvalid).mp hf
        exact hkept hkind known hknown entry (NameSet.mem_ofList.mp hentry) f
          ((entryField_eq_ok_iff hwf).mp hok).2

/-- The method's own contract holds the fields that its declaration names. -/
theorem mem_ownContract_iff (hwf : h.WellFormed) (hm : h.method? m = some decl)
    (hown : rule.ownContract h facts m decl.owner = .ok own) {f : String} :
    f ∈ own.fields ↔ rule.OwnField h decl f := by
  rcases ownContract_eq_ok_iff.mp hown with ⟨hnone, rfl⟩ | ⟨raw, fields, hraw, hvalid, rfl, -⟩
  · constructor
    · intro hf
      exact absurd hf List.not_mem_nil
    · rintro ⟨a, ha, -⟩
      have hvalues := (annotationValues_eq_some_iff hm).mpr ⟨a, ha, rfl⟩
      rw [hvalues] at hnone
      exact absurd hnone (by simp)
  · obtain ⟨a, ha, rfl⟩ := (annotationValues_eq_some_iff hm).mp hraw
    show f ∈ fields ↔ rule.OwnField h decl f
    rw [mem_of_validate_iff hvalid]
    constructor
    · rintro ⟨entry, hentry, hok⟩
      exact ⟨a, ha, entry, NameSet.mem_ofList.mp hentry, ((entryField_eq_ok_iff hwf).mp hok).2⟩
    · rintro ⟨b, hb, entry, hentry, hf⟩
      have hsame : a = b := Option.some.inj
        ((find?_isNamed_eq_some_iff.mpr ha).symm.trans (find?_isNamed_eq_some_iff.mpr hb))
      subst hsame
      have hmem : entry ∈ NameSet.ofList a.values := NameSet.mem_ofList.mpr hentry
      obtain ⟨g, hg⟩ := (exists_validate_eq_ok_iff.mp ⟨fields, hvalid⟩).2 entry hmem
      have hvalidEntry := ((entryField_eq_ok_iff hwf).mp hg).1
      exact ⟨entry, hmem, (entryField_eq_ok_iff hwf).mpr ⟨hvalidEntry, hf⟩⟩

/-- The contract of an overridden method holds the last segments of the entries that it lists. -/
theorem mem_inheritedContract_iff (hm : h.method? m = some decl) {f : String} :
    f ∈ (rule.inheritedContract h m).fields ↔ rule.InheritedField decl f := by
  unfold inheritedContract
  constructor
  · intro hf
    cases hvalues : h.annotationValues m rule.simpleName with
    | none =>
        rw [hvalues] at hf
        exact absurd hf List.not_mem_nil
    | some raw =>
        obtain ⟨a, ha, rfl⟩ := (annotationValues_eq_some_iff hm).mp hvalues
        rw [hvalues] at hf
        obtain ⟨entry, hentry, rfl⟩ := List.mem_map.mp (NameSet.mem_ofList.mp hf)
        exact ⟨a, ha, entry, NameSet.mem_ofList.mp hentry, rfl⟩
  · rintro ⟨a, ha, entry, hentry, rfl⟩
    rw [(annotationValues_eq_some_iff hm).mpr ⟨a, ha, rfl⟩]
    refine NameSet.mem_ofList.mpr (List.mem_map.mpr ⟨entry, ?_, rfl⟩)
    exact NameSet.mem_ofList.mpr hentry

/-- A rule reports nothing of a method if the method's declaration holds and the method is static,
overrides nothing, or may stand in for the first method of its signature that plain recursion
meets above its class. -/
theorem check_silent_iff (hreach : h.Reachable) (rule : Rule) (facts : ExitFacts)
    (hm : h.method? m = some decl) :
    (rule.check h facts m).diagnostics = [] ↔
      rule.DeclarationHolds h facts m decl ∧
        (decl.isStatic = true ∨
          (∀ s, h.StrictSupertype decl.owner s → ¬ h.DeclaresInstance decl.signature s) ∨
          ∃ order m' decl', h.DepthFirst (h.directSupertypes decl.owner) order ∧
            order.findSome? (h.overridable? decl.signature) = some m' ∧
            h.method? m' = some decl' ∧
            rule.kind.Substitutable (rule.OwnField h decl) (rule.InheritedField decl')) := by
  have hwf : h.WellFormed := hreach.wellFormed
  rw [check_diagnostics_eq_nil_iff hm, ← exists_ownContract_iff hwf hm]
  simp only [compare_diagnostics_eq_nil_iff]
  rw [← or_assoc, ← closestOverridden?_eq_none_iff hwf hm]
  -- Both sides speak of one contract: its kind and its fields are those of the declaration.
  have hreading : ∀ own, rule.ownContract h facts m decl.owner = .ok own → ∀ m' decl',
      h.method? m' = some decl' →
        (own.kind.Substitutable (· ∈ own.fields) (· ∈ (rule.inheritedContract h m').fields) ↔
          rule.kind.Substitutable (rule.OwnField h decl) (rule.InheritedField decl')) := by
    intro own hown m' decl' hm'
    rw [kind_of_ownContract hown]
    simp only [mem_ownContract_iff hwf hm hown, mem_inheritedContract_iff hm']
  constructor
  · rintro ⟨own, hown, hcompare⟩
    refine ⟨⟨own, hown⟩, ?_⟩
    cases hfound : h.closestOverridden? m with
    | none => exact Or.inl rfl
    | some m' =>
        obtain ⟨s, -, hmatch⟩ := mem_of_closestOverridden? hwf hm hfound
        obtain ⟨-, decl', hm', -⟩ := mem_of_overridable? hmatch
        obtain ⟨order, horder⟩ := hwf.exists_depthFirst (h.directSupertypes decl.owner)
        have hinst : decl.isStatic = false := instance_of_closestOverridden? hm hfound
        refine Or.inr ⟨order, m', decl', horder, ?_, hm', ?_⟩
        · rw [← closestOverridden?_eq_findSome? hwf hm hinst horder, hfound]
        · exact (hreading own hown m' decl' hm').mp (hcompare m' hfound)
  · rintro ⟨⟨own, hown⟩, hoverride⟩
    refine ⟨own, hown, fun m' hfound => ?_⟩
    rcases hoverride with hnone | ⟨order, m'', decl', horder, hfirst, hm', hsubst⟩
    · rw [hfound] at hnone
      exact absurd hnone (by simp)
    · have hinst : decl.isStatic = false := instance_of_closestOverridden? hm hfound
      rw [closestOverridden?_eq_findSome? hwf hm hinst horder, hfirst] at hfound
      obtain rfl := Option.some.inj hfound
      exact (hreading own hown m'' decl' hm').mpr hsubst

/-- `Leaf.init` requires with `this.a` what `Base.init` requires with `a`. -/
def restatedPrecondition : List Operation := [
  .addClass "Base", .addClass "Leaf", .setSuperclass ⟨1⟩ ⟨0⟩,
  .addField ⟨0⟩ ⟨"a", false⟩,
  .addMethod ⟨0⟩ ⟨⟨"init", []⟩, false, [⟨"RequiresNonNull", ["a"]⟩]⟩,
  .addMethod ⟨1⟩ ⟨⟨"init", []⟩, false, [⟨"lang.RequiresNonNull", ["this.a"]⟩]⟩]

/-- What `restatedPrecondition` registers as `Leaf.init`. -/
def restatingLeaf : MethodDecl :=
  ⟨⟨⟨"init", []⟩, false, [⟨"lang.RequiresNonNull", ["this.a"]⟩]⟩, ⟨1⟩, ⟨1⟩⟩

/-- The rule for preconditions of the standard name that compares a method with a malformed
declaration as if it declared nothing; the standard configuration skips such a method. -/
def requiresNonNull : Rule := ⟨.precondition, "RequiresNonNull", .treatAsEmpty⟩

theorem check_silent_restatedPrecondition :
    (Hierarchy.after restatedPrecondition).method? ⟨1⟩ = some restatingLeaf ∧
      ((requiresNonNull.check (Hierarchy.after restatedPrecondition) ExitFacts.unknown
          ⟨1⟩).diagnostics = [] ↔
        requiresNonNull.DeclarationHolds (Hierarchy.after restatedPrecondition)
            ExitFacts.unknown ⟨1⟩ restatingLeaf ∧
          (restatingLeaf.isStatic = true ∨
            (∀ s, (Hierarchy.after restatedPrecondition).StrictSupertype restatingLeaf.owner s →
              ¬ (Hierarchy.after restatedPrecondition).DeclaresInstance
                restatingLeaf.signature s) ∨
            ∃ order m' decl',
              (Hierarchy.after restatedPrecondition).DepthFirst
                ((Hierarchy.after restatedPrecondition).directSupertypes restatingLeaf.owner)
                order ∧
              order.findSome? ((Hierarchy.after restatedPrecondition).overridable?
                restatingLeaf.signature) = some m' ∧
              (Hierarchy.after restatedPrecondition).method? m' = some decl' ∧
              requiresNonNull.kind.Substitutable
                (requiresNonNull.OwnField (Hierarchy.after restatedPrecondition) restatingLeaf)
                (requiresNonNull.InheritedField decl'))) := by
  have hm : (Hierarchy.after restatedPrecondition).method? ⟨1⟩ = some restatingLeaf := by cbv
  have hreach : (Hierarchy.after restatedPrecondition).Reachable := ⟨restatedPrecondition, rfl⟩
  exact ⟨hm, check_silent_iff hreach requiresNonNull ExitFacts.unknown hm⟩

end Rule

end FieldContracts
