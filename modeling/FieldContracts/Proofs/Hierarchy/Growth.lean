import FieldContracts.Proofs.Hierarchy.Refusals
import FieldContracts.Proofs.Hierarchy.SupertypeEdges

/-!
# What a step on one class leaves alone

`GrowsAt c` says that a hierarchy comes from another one by additions to the class `c`: all other
classes are as they were, names stay, and no edge is lost.  `growsAt_of_apply` says so of every
accepted step on `c`.  A step on registered classes that is refused `BlamesContents`, unless it sets
a superclass a second time.
-/

namespace FieldContracts

/-- The class that the operation adds to, if it registers none. -/
def Operation.target? : Operation → Option ClassId
  | .addClass _ => none
  | .setSuperclass c _ => some c
  | .addInterface c _ => some c
  | .addField c _ => some c
  | .addMethod c _ => some c

namespace Hierarchy

variable {h h' h'' : Hierarchy} {c s : ClassId}

/-- The hierarchy `h'` is `h` with additions to the class `c` and no other change. -/
structure GrowsAt (h : Hierarchy) (c : ClassId) (h' : Hierarchy) : Prop where
  other : ∀ d, d ≠ c → h'.registered? d = h.registered? d
  className : ∀ d, h'.className? d = h.className? d
  direct : ∀ a b, h.DirectSupertype a b → h'.DirectSupertype a b

namespace GrowsAt

theorem refl (h : Hierarchy) (c : ClassId) : h.GrowsAt c h :=
  ⟨fun _ _ => rfl, fun _ => rfl, fun _ _ hab => hab⟩

theorem trans (hfirst : h.GrowsAt c h') (hsecond : h'.GrowsAt c h'') : h.GrowsAt c h'' :=
  ⟨fun d hd => (hsecond.other d hd).trans (hfirst.other d hd),
    fun d => (hsecond.className d).trans (hfirst.className d),
    fun a b hab => hsecond.direct a b (hfirst.direct a b hab)⟩

theorem superclass? (hgrow : h.GrowsAt c h') {d : ClassId} (hd : d ≠ c) :
    h'.superclass? d = h.superclass? d := by
  rw [Hierarchy.superclass?, hgrow.other d hd, ← Hierarchy.superclass?]

theorem classCount (hgrow : h.GrowsAt c h') (d : ClassId) :
    d.index < h'.classCount ↔ d.index < h.classCount := by
  rw [← exists_className?_iff, ← exists_className?_iff, hgrow.className]

end GrowsAt

theorem registered?_modifyEntry_of_ne {change : ClassEntry → ClassEntry} {d : ClassId}
    (hd : d ≠ c) : (h.modifyEntry c change).registered? d = h.registered? d := by
  rw [registered?_modifyEntry, if_neg fun heq => hd heq.symm]

/-- An accepted step on a class changes nothing but this class. -/
theorem growsAt_of_apply {op : Operation} (happly : op.apply h = .ok h')
    (htarget : op.target? = some c) : h.GrowsAt c h' := by
  have hdirect : ∀ a b, h.DirectSupertype a b → h'.DirectSupertype a b := fun a b hab =>
    (directSupertype_of_apply happly).mpr (Or.inl hab)
  cases op with
  | addClass name => simp [Operation.target?] at htarget
  | setSuperclass d s =>
      obtain rfl : d = c := by simpa [Operation.target?] using htarget
      obtain ⟨-, rfl⟩ := setSuperclass_eq_ok_iff.mp happly
      refine ⟨fun _ => registered?_modifyEntry_of_ne, fun e => ?_, hdirect⟩
      rw [className?, class?_withSuperclass, ← className?]
  | addInterface d i =>
      obtain rfl : d = c := by simpa [Operation.target?] using htarget
      obtain ⟨-, rfl⟩ := addInterface_eq_ok_iff.mp happly
      refine ⟨fun _ => registered?_modifyEntry_of_ne, fun e => ?_, hdirect⟩
      rw [className?, class?_withInterface, ← className?]
  | addField d field =>
      obtain rfl : d = c := by simpa [Operation.target?] using htarget
      obtain ⟨-, rfl⟩ := addField_eq_ok_iff.mp happly
      exact ⟨fun _ => registered?_modifyEntry_of_ne, fun _ => className?_appendMember _, hdirect⟩
  | addMethod d spec =>
      obtain rfl : d = c := by simpa [Operation.target?] using htarget
      obtain ⟨-, rfl⟩ := addMethod_eq_ok_iff.mp happly
      exact ⟨fun _ => registered?_modifyEntry_of_ne, fun _ => className?_withMethod _, hdirect⟩

end Hierarchy

/-! ## Refusals on registered classes -/

/-- The refusal blames what a class is described with: a supertype that is not described, a cycle
or a repeated field. -/
inductive BuildError.BlamesContents : BuildError → Prop where
  | unknownName (name referencedBy : String) :
      BlamesContents (.unknownClassName name referencedBy)
  | cycle (className supertype : String) : BlamesContents (.inheritanceCycle className supertype)
  | repeatedField (className field : String) : BlamesContents (.duplicateField className field)

namespace Hierarchy

variable {h : Hierarchy} {c s : ClassId} {refusal : BuildError}

/-- Between registered classes an edge is refused only because it closes a cycle. -/
theorem blamesContents_of_edgeRefusal? (hc : c.index < h.classCount) (hs : s.index < h.classCount)
    (hrefused : h.edgeRefusal? c s = some refusal) : refusal.BlamesContents := by
  rcases edgeRefusal?_eq_some_iff.mp hrefused with
    ⟨hunknown, -⟩ | ⟨-, hunknown, -⟩ | ⟨className, supertype, -, -, -, rfl⟩
  · omega
  · omega
  · exact .cycle className supertype

theorem blamesContents_of_setSuperclass (hc : c.index < h.classCount) (hs : s.index < h.classCount)
    (hfree : h.superclass? c = none) (hrefused : h.setSuperclass c s = .error refusal) :
    refusal.BlamesContents := by
  have hcause := setSuperclass_eq_error_iff.mp hrefused
  rcases superclassRefusal?_eq_some_iff.mp hcause with ⟨taken, _, hsuper, -⟩ | ⟨-, hedge⟩
  · rw [hfree] at hsuper
    cases hsuper
  · exact blamesContents_of_edgeRefusal? hc hs hedge

theorem blamesContents_of_addInterface (hc : c.index < h.classCount) (hs : s.index < h.classCount)
    (hrefused : h.addInterface c s = .error refusal) : refusal.BlamesContents :=
  blamesContents_of_edgeRefusal? hc hs (addInterface_eq_error_iff.mp hrefused)

theorem blamesContents_of_addField (hc : c.index < h.classCount) {field : FieldDecl}
    (hrefused : h.addField c field = .error refusal) : refusal.BlamesContents := by
  rcases addField_eq_error_iff.mp hrefused with ⟨hunknown, -⟩ | ⟨decl, -, -, rfl⟩
  · omega
  · exact .repeatedField decl.name field.name

/-- A registered class takes every method. -/
theorem addMethod_ne_error (hc : c.index < h.classCount) (spec : MethodSpec) :
    h.addMethod c spec ≠ .error refusal := by
  rw [addMethod_eq_ok_iff.mpr ⟨hc, rfl⟩]
  simp

end Hierarchy

end FieldContracts
