import FieldContracts.Check.Whole
import FieldContracts.Proofs.Hierarchy.Renaming

/-!
# Checking a renamed hierarchy

What a rule reports of a method depends only on the method, on its owner and on the classes above
the owner.  `check_renamed` says so: of a renamed method the same is reported, word for word, under
the new identity.  `checkClass_renamed` says it of all methods of one class.
-/

namespace FieldContracts

/-- The diagnostic with the identity of its method replaced. -/
def Diagnostic.relocate (onMethod : MethodId → MethodId) (d : Diagnostic) : Diagnostic :=
  { d with location := { d.location with method := onMethod d.location.method } }

/-- The verdict with the identity of its method replaced. -/
def Verdict.relocate (onMethod : MethodId → MethodId) (v : Verdict) : Verdict :=
  { v with diagnostics := v.diagnostics.map (Diagnostic.relocate onMethod) }

variable {h h' : Hierarchy} {scope : ClassId → Prop} {ρ : Renaming} {c : ClassId} {m : MethodId}
  {decl : MethodDecl} {facts facts' : ExitFacts}

namespace Hierarchy.RenamedTo

/-! ## Names and annotations -/

theorem annotationValues_renamed (hren : h.RenamedTo h' scope ρ) (hm : h.method? m = some decl)
    (hscope : scope decl.owner) (simple : String) :
    h'.annotationValues (ρ.onMethod m) simple = h.annotationValues m simple := by
  unfold annotationValues
  rw [hren.method m decl hm hscope, hm]
  rfl

theorem qualifiedName_renamed (hren : h.RenamedTo h' scope ρ) (hm : h.method? m = some decl)
    (hscope : scope decl.owner) : h'.qualifiedName (ρ.onMethod m) = h.qualifiedName m := by
  unfold qualifiedName
  rw [hren.method m decl hm hscope, hm]
  simp only [hren.className decl.owner hscope]

theorem location_renamed (hren : h.RenamedTo h' scope ρ) (hm : h.method? m = some decl)
    (hscope : scope decl.owner) :
    h'.location (ρ.onMethod m) = ⟨ρ.onMethod m, h.qualifiedName m⟩ := by
  unfold location
  rw [hren.qualifiedName_renamed hm hscope]

/-! ## Declarations -/

theorem resolvesToStatic_renamed (hren : h.RenamedTo h' scope ρ) (hwf : h.WellFormed)
    (hwf' : h'.WellFormed) (hc : scope c) :
    h'.resolvesToStatic (ρ.onClass c) = h.resolvesToStatic c := by
  ext name
  unfold resolvesToStatic
  rw [hren.resolveField_renamed hwf hwf' hc, Option.any_map]
  rfl

/-- An entry means the same in the renamed class, and its fault is reported in the same words. -/
theorem entryField_renamed (hren : h.RenamedTo h' scope ρ) (hwf : h.WellFormed)
    (hwf' : h'.WellFormed) (hc : scope c) (hregistered : c.index < h.classCount) :
    h'.entryField (ρ.onClass c) = h.entryField c := by
  -- A fault quotes the name of the class, which a registered class keeps.
  obtain ⟨className, hname⟩ := exists_className?_iff.mpr hregistered
  have hname' : h'.className? (ρ.onClass c) = some className := by
    rw [hren.className c hc, hname]
  have hplain : ∀ entry, h'.plainField (ρ.onClass c) entry = h.plainField c entry := by
    intro entry
    unfold plainField
    rw [hname, hname']
    cases FieldReference.ofEntry? entry with
    | none => rfl
    | some reference =>
        simp only [hren.resolveField_renamed hwf hwf' hc, Option.isSome_map, Option.getD_some]
  ext entry
  unfold entryField
  rw [hren.resolvesToStatic_renamed hwf hwf' hc, hplain]

theorem validate_renamed (hren : h.RenamedTo h' scope ρ) (hwf : h.WellFormed)
    (hwf' : h'.WellFormed) (hc : scope c) (hregistered : c.index < h.classCount)
    (raw : NameSet) : h'.validate (ρ.onClass c) raw = h.validate c raw := by
  unfold validate
  rw [hren.entryField_renamed hwf hwf' hc hregistered]

end Hierarchy.RenamedTo

namespace Rule

open Hierarchy

variable (rule : Rule) (hren : h.RenamedTo h' scope ρ) (hwf : h.WellFormed) (hwf' : h'.WellFormed)
  (hco : h.Coherent) (hm : h.method? m = some decl) (hscope : scope decl.owner)

include hren hm hscope

theorem inheritedContract_renamed :
    rule.inheritedContract h' (ρ.onMethod m) = rule.inheritedContract h m := by
  unfold inheritedContract
  rw [hren.annotationValues_renamed hm hscope]

include hwf hco

/-- The comparison comes out the same way. -/
theorem compare_renamed (own : Contract) :
    rule.compare h' (ρ.onMethod m) own = (rule.compare h m own).relocate ρ.onMethod := by
  unfold compare
  rw [hren.closestOverridden?_renamed hco hm hscope]
  cases hfound : h.closestOverridden? m with
  | none => rfl
  | some m' =>
      obtain ⟨decl', hm', hscope'⟩ := hren.scope_of_closestOverridden? hwf hco hm hscope hfound
      simp only [Option.map_some, inheritedContract_renamed rule hren hm' hscope',
        hren.qualifiedName_renamed hm hscope, hren.qualifiedName_renamed hm' hscope',
        hren.location_renamed hm hscope]
      cases own.violation? (rule.inheritedContract h m') with
      | none => rfl
      | some v => rfl

include hwf'

theorem ownContract_renamed (hfacts : facts' (ρ.onMethod m) = facts m) :
    rule.ownContract h' facts' (ρ.onMethod m) (ρ.onClass decl.owner) =
      rule.ownContract h facts m decl.owner := by
  have hregistered : decl.owner.index < h.classCount := hco.owner_registered hm
  unfold ownContract
  simp only [hren.annotationValues_renamed hm hscope, hfacts,
    hren.validate_renamed hwf hwf' hscope hregistered]

/-- Of a renamed method the rule reports the same under the new identity. -/
theorem check_renamed (hfacts : facts' (ρ.onMethod m) = facts m) :
    rule.check h' facts' (ρ.onMethod m) = (rule.check h facts m).relocate ρ.onMethod := by
  have hown := ownContract_renamed rule hren hwf hwf' hco hm hscope hfacts
  have hcompare := compare_renamed rule hren hwf hco hm hscope
  have hfault : ∀ fault, rule.faultDiagnostic h' (ρ.onMethod m) fault =
      (rule.faultDiagnostic h m fault).relocate ρ.onMethod := by
    intro fault
    unfold faultDiagnostic
    rw [hren.qualifiedName_renamed hm hscope, hren.location_renamed hm hscope]
    rfl
  unfold check
  rw [hren.method m decl hm hscope, hm]
  simp only [hown, hcompare, hfault]
  cases rule.ownContract h facts m decl.owner with
  | ok own => rfl
  | error fault =>
      cases fault with
      | unensured gap => rfl
      | malformed error =>
          cases rule.policy with
          | skipInheritance => rfl
          | treatAsEmpty => rfl

end Rule

namespace Config

open Hierarchy

theorem checkMethod_renamed (hren : h.RenamedTo h' scope ρ) (hwf : h.WellFormed)
    (hwf' : h'.WellFormed) (hco : h.Coherent) (hm : h.method? m = some decl)
    (hscope : scope decl.owner) (hfacts : facts' (ρ.onMethod m) = facts m) (config : Config) :
    config.checkMethod h' facts' (ρ.onMethod m) =
      (config.checkMethod h facts m).map (Diagnostic.relocate ρ.onMethod) := by
  unfold checkMethod
  rw [List.map_flatMap]
  refine List.flatMap_congr fun rule _ => ?_
  rw [rule.check_renamed hren hwf hwf' hco hm hscope hfacts]
  rfl

/-- Of the methods of a renamed class the same is reported in the same order. -/
theorem checkClass_renamed (hren : h.RenamedTo h' scope ρ) (hwf : h.WellFormed)
    (hwf' : h'.WellFormed) (hco : h.Coherent) (hc : scope c)
    (hfacts : ∀ m ∈ h.declaredMethods c, facts' (ρ.onMethod m) = facts m) (config : Config) :
    config.checkClass h' facts' (ρ.onClass c) =
      (config.checkClass h facts c).map (Diagnostic.relocate ρ.onMethod) := by
  unfold checkClass
  rw [hren.declaredMethods c hc, List.map_flatMap, List.flatMap_map]
  refine List.flatMap_congr fun m hm => ?_
  obtain ⟨decl, hdecl, rfl⟩ := hco.owned c m hm
  exact checkMethod_renamed hren hwf hwf' hco hdecl hc (hfacts m hm) config

end Config

end FieldContracts
