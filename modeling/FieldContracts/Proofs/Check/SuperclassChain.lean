import FieldContracts.Check.Whole
import FieldContracts.Proofs.Check.Silence
import FieldContracts.Proofs.Hierarchy.Coherence
import Mathlib

/-!
# Overrides along a chain of superclasses

The checker compares a method only with the closest method that it overrides.
`substitutable_along_chain` says that this suffices along superclasses: if nothing is reported of
a whole hierarchy, a method may stand in for every method of its signature further up the chain,
however many overrides lie between.
-/

namespace FieldContracts

open Hierarchy

variable {config : Config} {rule : Rule} {h : Hierarchy} {facts : ExitFacts} {m m' : MethodId}
  {decl : MethodDecl}

/-- If nothing is reported of the hierarchy, no rule reports anything of any of its methods. -/
theorem Config.check_silent_of_checkAll (hco : h.Coherent)
    (hclean : config.checkAll h facts = []) (hrule : rule ∈ config.rules)
    (hm : h.method? m = some decl) : (rule.check h facts m).diagnostics = [] := by
  have hlisted : m ∈ h.declaredMethods decl.owner := hco.listed m decl hm
  have howner : decl.owner ∈ h.classIds := mem_classIds.mpr (hco.owner_registered hm)
  have hclass : config.checkClass h facts decl.owner = [] :=
    List.flatMap_eq_nil_iff.mp hclean decl.owner howner
  have hmethod : config.checkMethod h facts m = [] :=
    List.flatMap_eq_nil_iff.mp hclass m hlisted
  exact List.flatMap_eq_nil_iff.mp hmethod rule hrule

namespace Hierarchy

/-- No static field has a dot in its name. -/
def StaticsDotless (h : Hierarchy) : Prop :=
  ∀ c decl, h.class? c = some decl → ∀ field ∈ decl.fields, field.isStatic = true →
    '.' ∉ field.name.toList

theorem StaticsDotless.of_namesStatic (hdotless : h.StaticsDotless) {c : ClassId} {name : String}
    (hstatic : h.NamesStatic c name) : '.' ∉ name.toList := by
  obtain ⟨r, hnear, hr⟩ := hstatic
  obtain ⟨decl, hdecl, hmem, rfl⟩ := hnear.declared
  exact hdotless r.owner decl hdecl r.field hmem hr

end Hierarchy

namespace Rule

/-- A method has the same contract as an override and as an overridden method. -/
theorem eq_inheritedContract_of_ownContract (hwf : h.WellFormed) (hdotless : h.StaticsDotless)
    {c : ClassId} {own : Contract} (hown : rule.ownContract h facts m c = .ok own) :
    own = rule.inheritedContract h m := by
  unfold inheritedContract
  rcases ownContract_eq_ok_iff.mp hown with ⟨hnone, rfl⟩ | ⟨raw, fields, hraw, hvalid, rfl, -⟩
  · rw [hnone]
    rfl
  · have htrim : fields = trimReceivers raw :=
      eq_trimReceivers_of_validate hwf (fun _ _ => hdotless.of_namesStatic) hvalid
    rw [hraw, htrim]
    rfl

/-- A method of which nothing is reported may stand in for the closest method it overrides. -/
theorem substitutable_of_silent (hwf : h.WellFormed) (hdotless : h.StaticsDotless)
    (hm : h.method? m = some decl) (hsilent : (rule.check h facts m).diagnostics = [])
    (hclosest : h.closestOverridden? m = some m') :
    rule.kind.Substitutable (· ∈ (rule.inheritedContract h m).fields)
      (· ∈ (rule.inheritedContract h m').fields) := by
  obtain ⟨own, hown, hcompare⟩ := (check_diagnostics_eq_nil_iff hm).mp hsilent
  have hsubst := compare_diagnostics_eq_nil_iff.mp hcompare m' hclosest
  rwa [kind_of_ownContract hown, eq_inheritedContract_of_ownContract hwf hdotless hown] at hsubst

/-- The comparison with the closest overridden method reaches every method of the signature on the
chain of superclasses. -/
theorem substitutable_on_chain (hwf : h.WellFormed) (hco : h.Coherent)
    (hdotless : h.StaticsDotless)
    (hsilent : ∀ m decl, h.method? m = some decl → (rule.check h facts m).diagnostics = [])
    (hm : h.method? m = some decl) (hinst : decl.isStatic = false) {a : ClassId}
    (hchain : h.SuperclassAbove decl.owner a)
    (hmatch : h.overridable? decl.signature a = some m') :
    rule.kind.Substitutable (· ∈ (rule.inheritedContract h m).fields)
      (· ∈ (rule.inheritedContract h m').fields) := by
  -- The closest method stands on the chain at or below `a`, so its class has a smaller depth.
  induction hdepth : h.depth decl.owner using Nat.strongRecOn
    generalizing m decl with
  | _ depth ih =>
      obtain ⟨n, found, hn, hfound, hclosest, hna⟩ :=
        closestOverridden?_on_chain hwf hm hinst hchain hmatch
      have hlower := substitutable_of_silent hwf hdotless hm (hsilent m decl hm) hclosest
      rcases hna with rfl | hna
      · rw [hmatch] at hfound
        rw [Option.some.inj hfound]
        exact hlower
      -- The closest method is itself compared with its closest one, further up the same chain.
      · obtain ⟨hlisted, foundDecl, hfoundDecl, hfoundInst, hsignature⟩ :=
          mem_of_overridable? hfound
        obtain ⟨ownedDecl, hownedDecl, rfl⟩ := hco.owned n found hlisted
        obtain rfl := Option.some.inj (hfoundDecl.symm.trans hownedDecl)
        have hlt : h.depth foundDecl.owner < depth :=
          hdepth ▸ hwf.depth_lt_of_strictSupertype hn.strictSupertype
        refine hlower.trans (ih _ hlt hfoundDecl hfoundInst hna ?_ rfl)
        rw [hsignature, hmatch]

end Rule

/-- If nothing is reported of a hierarchy, every method may stand in for each method of its
signature on the chain of superclasses: it requires no field that the other does not require, and
it ensures every field that the other ensures. -/
theorem substitutable_along_chain (hreach : h.Reachable) (config : Config) (facts : ExitFacts)
    (hdotless : ∀ c decl, h.class? c = some decl → ∀ field ∈ decl.fields,
      field.isStatic = true → '.' ∉ field.name.toList)
    (hclean : config.checkAll h facts = []) (hm : h.method? m = some decl)
    (hinst : decl.isStatic = false) {a : ClassId}
    (hchain : Relation.TransGen (fun c s => h.superclass? c = some s) decl.owner a)
    (hfirst : h.overridable? decl.signature a = some m') :
    (∀ field ∈ (Contract.ofDeclaration .precondition
        (h.annotationValues m config.precondition)).fields,
      field ∈ (Contract.ofDeclaration .precondition
        (h.annotationValues m' config.precondition)).fields) ∧
    (∀ field ∈ (Contract.ofDeclaration .postcondition
        (h.annotationValues m' config.postcondition)).fields,
      field ∈ (Contract.ofDeclaration .postcondition
        (h.annotationValues m config.postcondition)).fields) := by
  have hwf : h.WellFormed := hreach.wellFormed
  have hco : h.Coherent := hreach.coherent
  have hrule : ∀ rule ∈ config.rules,
      rule.kind.Substitutable (· ∈ (rule.inheritedContract h m).fields)
        (· ∈ (rule.inheritedContract h m').fields) := fun rule hrule =>
    rule.substitutable_on_chain hwf hco hdotless
      (fun _ _ hm => Config.check_silent_of_checkAll hco hclean hrule hm) hm hinst hchain hfirst
  exact ⟨hrule ⟨.precondition, config.precondition, config.policy⟩ (by simp [Config.rules]),
    hrule ⟨.postcondition, config.postcondition, config.policy⟩ (by simp [Config.rules])⟩

/-- Three classes one above the other, each of which declares `init`; the contract of the one in the
middle is written with receivers. -/
def threeLevels : List Operation := [
  .addClass "Root", .addClass "Middle", .addClass "Leaf",
  .setSuperclass ⟨2⟩ ⟨1⟩, .setSuperclass ⟨1⟩ ⟨0⟩,
  .addField ⟨0⟩ ⟨"a", false⟩, .addField ⟨0⟩ ⟨"b", false⟩,
  .addMethod ⟨0⟩ ⟨⟨"init", []⟩, false, [⟨"RequiresNonNull", ["a", "b"]⟩]⟩,
  .addMethod ⟨1⟩ ⟨⟨"init", []⟩, false,
    [⟨"RequiresNonNull", ["this.a"]⟩, ⟨"EnsuresNonNull", ["this.b"]⟩]⟩,
  .addMethod ⟨2⟩ ⟨⟨"init", []⟩, false, [⟨"EnsuresNonNull", ["b", "a"]⟩]⟩]

theorem substitutable_threeLevels :
    Config.standard.checkAll (after threeLevels) ExitFacts.unknown = [] ∧
      (∀ field ∈ (Contract.ofDeclaration .precondition
          ((after threeLevels).annotationValues ⟨2⟩ "RequiresNonNull")).fields,
        field ∈ (Contract.ofDeclaration .precondition
          ((after threeLevels).annotationValues ⟨0⟩ "RequiresNonNull")).fields) ∧
      (∀ field ∈ (Contract.ofDeclaration .postcondition
          ((after threeLevels).annotationValues ⟨0⟩ "EnsuresNonNull")).fields,
        field ∈ (Contract.ofDeclaration .postcondition
          ((after threeLevels).annotationValues ⟨2⟩ "EnsuresNonNull")).fields) := by
  have hreach : (after threeLevels).Reachable := ⟨threeLevels, rfl⟩
  have hinstance : ((after threeLevels).classes.all fun entry =>
      entry.decl.fields.all fun field => !field.isStatic) = true := by cbv
  have hdotless : (after threeLevels).StaticsDotless := by
    intro c decl hdecl field hfield hstatic
    obtain ⟨entry, hentry, rfl⟩ := Option.map_eq_some_iff.mp hdecl
    have hfields := Array.all_eq_true'.mp hinstance entry (Array.mem_of_getElem? hentry)
    have hnot := List.all_eq_true.mp hfields field hfield
    simp [hstatic] at hnot
  have hclean : Config.standard.checkAll (after threeLevels) ExitFacts.unknown = [] := by cbv
  have hm : (after threeLevels).method? ⟨2⟩ =
      some ⟨⟨⟨"init", []⟩, false, [⟨"EnsuresNonNull", ["b", "a"]⟩]⟩, ⟨2⟩, ⟨2⟩⟩ := by cbv
  have hlower : (after threeLevels).superclass? ⟨2⟩ = some ⟨1⟩ := by cbv
  have hupper : (after threeLevels).superclass? ⟨1⟩ = some ⟨0⟩ := by cbv
  have hfirst : (after threeLevels).overridable? ⟨"init", []⟩ ⟨0⟩ = some ⟨0⟩ := by cbv
  exact ⟨hclean, substitutable_along_chain hreach Config.standard ExitFacts.unknown hdotless hclean
    hm rfl (.tail (.single hlower) hupper) hfirst⟩

end FieldContracts
