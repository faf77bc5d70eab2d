import FieldContracts.Proofs.Check.Renaming
import FieldContracts.Proofs.Hierarchy.Persistence
import Mathlib

/-!
# A check reads only upward

What is found out about a method depends on its owner and on the classes above the owner.  A run
that spares these classes leaves their entries as they were (`registered?_performAll_of_spares`), so
the hierarchy before and the hierarchy after it agree on them under the same identities.
`checkMethod_performAll` draws the conclusion for the check, for the search for an overridden method
and for the look-up of fields.
-/

namespace FieldContracts

/-- Every class and every method keeps its identity. -/
def Renaming.identity : Renaming := ⟨id, id⟩

namespace Hierarchy

variable {h h' : Hierarchy} {c d s : ClassId} {m : MethodId} {decl : MethodDecl}
  {op : Operation} {ops : List Operation} {region : ClassId → Prop} {facts facts' : ExitFacts}

/-- The class `d` is `c` itself or lies above it. -/
def AtOrAbove (h : Hierarchy) (c d : ClassId) : Prop := d = c ∨ h.StrictSupertype c d

theorem AtOrAbove.directSupertype (hd : h.AtOrAbove c d) (hdirect : h.DirectSupertype d s) :
    h.AtOrAbove c s := by
  rcases hd with rfl | hd
  · exact Or.inr (.single hdirect)
  · exact Or.inr (.tail hd hdirect)

/-- Whatever lies at or above a registered class is registered. -/
theorem AtOrAbove.registered (hwf : h.WellFormed) (hc : c.index < h.classCount)
    (hd : h.AtOrAbove c d) : d.index < h.classCount := by
  rcases hd with rfl | hd
  · exact hc
  · obtain ⟨b, -, hlast⟩ := Relation.TransGen.tail'_iff.mp hd
    exact hwf.registered b d hlast

/-! ## Runs that spare some classes -/

/-- The steps of a run that are accepted, in order. -/
def acceptedSteps (h : Hierarchy) : List Operation → List Operation
  | [] => []
  | op :: rest =>
      match op.apply h with
      | .ok next => op :: next.acceptedSteps rest
      | .error _ => h.acceptedSteps rest

/-- No accepted step of the run is a step on a class of the region. -/
def Spares (h : Hierarchy) (ops : List Operation) (region : ClassId → Prop) : Prop :=
  ∀ op ∈ h.acceptedSteps ops, ∀ c, op.target? = some c → ¬ region c

/-- A step on another class, or one that registers a class, leaves a registered class alone. -/
theorem registered?_of_spared (happly : op.apply h = .ok h')
    (hspared : ∀ c, op.target? = some c → ¬ region c) (hd : region d)
    (hcount : d.index < h.classCount) : h'.registered? d = h.registered? d := by
  refine registered?_of_apply happly ?_
  rintro rfl
  unfold Operation.changed at hd hcount
  cases htarget : op.target? with
  | some c =>
      rw [htarget, Option.getD_some] at hd
      exact hspared c htarget hd
  | none =>
      rw [htarget, Option.getD_none] at hcount
      exact Nat.lt_irrefl _ hcount

/-- A run leaves the registered classes of the region that it spares as they were. -/
theorem registered?_performAll_of_spares (hspares : h.Spares ops region) (hd : region d)
    (hcount : d.index < h.classCount) : (h.performAll ops).registered? d = h.registered? d := by
  induction ops generalizing h with
  | nil => rfl
  | cons op rest ih =>
      rw [performAll_cons]
      unfold Spares at hspares
      rw [acceptedSteps] at hspares
      cases happly : op.apply h with
      | ok next =>
          simp only [happly, List.mem_cons, forall_eq_or_imp] at hspares
          have hstep : next.registered? d = h.registered? d :=
            registered?_of_spared happly hspares.1 hd hcount
          have hnext : d.index < next.classCount :=
            Nat.lt_of_lt_of_le hcount (classCount_le_of_apply happly)
          rw [perform_of_apply_eq_ok happly, ih hspares.2 hnext, hstep]
      | error refusal =>
          simp only [happly] at hspares
          rw [perform_of_apply_eq_error happly]
          exact ih hspares hcount

/-! ## Agreement under the same identities -/

/-- Two hierarchies with the same entries in the region agree on it under the same identities. -/
theorem renamedTo_identity (hco : h.Coherent)
    (hupward : ∀ c s, region c → h.DirectSupertype c s → region s)
    (hsame : ∀ c, region c → h'.registered? c = h.registered? c)
    (hmethod : ∀ m decl, h.method? m = some decl → h'.method? m = some decl) :
    h.RenamedTo h' region Renaming.identity := by
  have hclass : ∀ c, region c → h'.class? c = h.class? c := fun c hc => by
    rw [class?, hsame c hc, ← class?]
  constructor
  · exact hupward
  · exact fun c d _ _ heq => heq
  · intro c hc
    show h'.className? c = h.className? c
    rw [className?, hclass c hc, ← className?]
  · intro c hc
    show h'.superclass? c = (h.superclass? c).map id
    rw [Option.map_id, superclass?, hsame c hc, ← superclass?]
    rfl
  · intro c hc
    show h'.interfaces c = (h.interfaces c).map id
    rw [List.map_id, interfaces, hsame c hc, ← interfaces]
  · intro c name hc
    show h'.declaredField? c name = h.declaredField? c name
    rw [declaredField?, hclass c hc, ← declaredField?]
  · intro c hc
    show h'.declaredMethods c = (h.declaredMethods c).map id
    rw [List.map_id, declaredMethods, hclass c hc, ← declaredMethods]
  · intro m decl hm _
    show h'.method? m = some { decl with id := m }
    rw [hmethod m decl hm, ← hco.method_id m decl hm]

/-- Before and after a run that spares the owner of a method and the classes above, the hierarchies
agree on these classes. -/
theorem renamedTo_performAll (hreach : h.Reachable) (hm : h.method? m = some decl)
    (hspares : h.Spares ops (h.AtOrAbove decl.owner)) :
    h.RenamedTo (h.performAll ops) (h.AtOrAbove decl.owner) Renaming.identity := by
  have howner : decl.owner.index < h.classCount := hreach.coherent.owner_registered hm
  refine renamedTo_identity hreach.coherent (fun c s hc => hc.directSupertype) (fun c hc => ?_)
    (extends_performAll h ops).method
  exact registered?_performAll_of_spares hspares hc (hc.registered hreach.wellFormed howner)

/-- The region that is spared does not grow. -/
theorem atOrAbove_performAll_iff (hreach : h.Reachable) (hm : h.method? m = some decl)
    (hspares : h.Spares ops (h.AtOrAbove decl.owner)) :
    (h.performAll ops).AtOrAbove decl.owner d ↔ h.AtOrAbove decl.owner d := by
  have hren := renamedTo_performAll hreach hm hspares
  have habove : (h.performAll ops).above decl.owner = (h.above decl.owner).map id :=
    hren.above_renamed (Or.inl rfl)
  rw [List.map_id] at habove
  rw [AtOrAbove, AtOrAbove, ← mem_above_iff (hreach.performAll ops).wellFormed.registered,
    ← mem_above_iff hreach.wellFormed.registered, habove]

end Hierarchy

namespace Config

open Hierarchy

variable {h : Hierarchy} {m : MethodId} {decl : MethodDecl} {facts facts' : ExitFacts}

/-- Further steps that spare the owner of a method and all classes above it change nothing for this
method: the same is reported of it as long as the same is known of its exits, it overrides the same
method, and the same fields are seen from its owner and from each class above.  The classes above
the owner stay the same as well. -/
theorem checkMethod_performAll (hreach : h.Reachable) (hm : h.method? m = some decl)
    (ops : List Operation) (hspares : h.Spares ops (h.AtOrAbove decl.owner))
    (hfacts : facts' m = facts m) (config : Config) :
    config.checkMethod (h.performAll ops) facts' m = config.checkMethod h facts m ∧
    (∀ rule : Rule, rule.check (h.performAll ops) facts' m = rule.check h facts m) ∧
    (h.performAll ops).closestOverridden? m = h.closestOverridden? m ∧
    (∀ c, h.AtOrAbove decl.owner c → ∀ name,
      (h.performAll ops).resolveField c name = h.resolveField c name) ∧
    ∀ c, (h.performAll ops).AtOrAbove decl.owner c ↔ h.AtOrAbove decl.owner c := by
  have hwf : h.WellFormed := hreach.wellFormed
  have hwf' : (h.performAll ops).WellFormed := (hreach.performAll ops).wellFormed
  have hco : h.Coherent := hreach.coherent
  have hren := renamedTo_performAll hreach hm hspares
  have howner : h.AtOrAbove decl.owner decl.owner := Or.inl rfl
  refine ⟨?_, fun rule => ?_, ?_, fun c hc name => ?_, fun c =>
    atOrAbove_performAll_iff hreach hm hspares⟩
  · have hcheck : config.checkMethod (h.performAll ops) facts' m =
        (config.checkMethod h facts m).map (Diagnostic.relocate id) :=
      checkMethod_renamed hren hwf hwf' hco hm howner hfacts config
    rw [hcheck]
    exact List.map_id _
  · have hcheck : rule.check (h.performAll ops) facts' m =
        (rule.check h facts m).relocate id :=
      rule.check_renamed hren hwf hwf' hco hm howner hfacts
    rw [hcheck, Verdict.relocate]
    exact congrArg (Verdict.mk _) (List.map_id _)
  · have hclosest : (h.performAll ops).closestOverridden? m =
        (h.closestOverridden? m).map id :=
      hren.closestOverridden?_renamed hco hm howner
    rw [hclosest, Option.map_id]
    rfl
  · have hfield : (h.performAll ops).resolveField c name =
        (h.resolveField c name).map Renaming.identity.resolvedField :=
      hren.resolveField_renamed hwf hwf' hc name
    rw [hfield]
    exact Option.map_id_apply

/-- `Leaf.init` overrides `Base.init` and names a field of `Base`. -/
def baseLeaf : List Operation := [
  .addClass "Base", .addClass "Leaf", .setSuperclass ⟨1⟩ ⟨0⟩, .addField ⟨0⟩ ⟨"a", false⟩,
  .addMethod ⟨0⟩ ⟨⟨"init", []⟩, false, []⟩,
  .addMethod ⟨1⟩ ⟨⟨"init", []⟩, false, [⟨"RequiresNonNull", ["a"]⟩]⟩]

/-- A class is put below `Leaf` and redeclares the field and the method.  `Base` is to get the field
once more, which is refused. -/
def laterBelow : List Operation := [
  .addClass "Below", .setSuperclass ⟨2⟩ ⟨1⟩, .addField ⟨0⟩ ⟨"a", true⟩,
  .addField ⟨2⟩ ⟨"a", true⟩, .addMethod ⟨2⟩ ⟨⟨"init", []⟩, false, []⟩]

theorem checkMethod_performAll_laterBelow :
    (after baseLeaf).acceptedSteps laterBelow =
      [.addClass "Below", .setSuperclass ⟨2⟩ ⟨1⟩, .addField ⟨2⟩ ⟨"a", true⟩,
        .addMethod ⟨2⟩ ⟨⟨"init", []⟩, false, []⟩] ∧
    Config.standard.checkMethod ((after baseLeaf).performAll laterBelow)
        (FactTable.empty.insert ⟨2⟩ .empty).facts ⟨1⟩ =
      Config.standard.checkMethod (after baseLeaf) ExitFacts.unknown ⟨1⟩ ∧
    ((after baseLeaf).performAll laterBelow).closestOverridden? ⟨1⟩ =
      (after baseLeaf).closestOverridden? ⟨1⟩ ∧
    ((after baseLeaf).performAll laterBelow).resolveField ⟨1⟩ "a" =
      (after baseLeaf).resolveField ⟨1⟩ "a" := by
  have haccepted : (after baseLeaf).acceptedSteps laterBelow =
      [.addClass "Below", .setSuperclass ⟨2⟩ ⟨1⟩, .addField ⟨2⟩ ⟨"a", true⟩,
        .addMethod ⟨2⟩ ⟨⟨"init", []⟩, false, []⟩] := by cbv
  have hm : (after baseLeaf).method? ⟨1⟩ =
      some ⟨⟨⟨"init", []⟩, false, [⟨"RequiresNonNull", ["a"]⟩]⟩, ⟨1⟩, ⟨1⟩⟩ := by cbv
  have hcount : (after baseLeaf).classCount = 2 := by cbv
  have hreach : (after baseLeaf).Reachable := ⟨baseLeaf, rfl⟩
  -- The only class that the accepted steps add to was not there before.
  have hnew : ¬ (after baseLeaf).AtOrAbove ⟨1⟩ ⟨2⟩ := fun habove => by
    have hlt := habove.registered hreach.wellFormed (by rw [hcount]; decide)
    rw [hcount] at hlt
    exact absurd hlt (by decide)
  have hspares : (after baseLeaf).Spares laterBelow ((after baseLeaf).AtOrAbove ⟨1⟩) := by
    intro op hop c htarget
    rw [haccepted] at hop
    have hbelow : c = ⟨2⟩ := by
      fin_cases hop <;> simp_all [Operation.target?]
    exact hbelow ▸ hnew
  have hfacts : (FactTable.empty.insert ⟨2⟩ .empty).facts ⟨1⟩ = ExitFacts.unknown ⟨1⟩ :=
    FactTable.facts_insert_of_ne FactTable.empty (by decide) .empty
  obtain ⟨hcheck, -, hclosest, hfield, -⟩ :=
    checkMethod_performAll hreach hm laterBelow hspares hfacts Config.standard
  exact ⟨haccepted, hcheck, hclosest, hfield ⟨1⟩ (Or.inl rfl) "a"⟩

end Config

end FieldContracts
