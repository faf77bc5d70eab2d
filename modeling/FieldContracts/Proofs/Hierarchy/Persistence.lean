import FieldContracts.Proofs.Hierarchy.Growth
import Mathlib

/-!
# What later steps keep

`Extends h h'` says that `h'` still says whatever `h` says: classes keep their names, lists only
grow at their ends, and a superclass or a method, once there, stays as it is.  Every accepted step
extends the hierarchy (`extends_of_apply`), and so does every run (`extends_performAll`).  A step
that was refused for what is there already is therefore refused for good
(`apply_eq_error_of_extends`).
-/

namespace FieldContracts

/-- The class `later` is the class `earlier`, perhaps with more members behind its own. -/
structure ClassDecl.GrowsTo (earlier later : ClassDecl) : Prop where
  id : later.id = earlier.id
  name : later.name = earlier.name
  members : earlier.members <+: later.members

theorem ClassDecl.GrowsTo.refl (decl : ClassDecl) : decl.GrowsTo decl :=
  ⟨rfl, rfl, List.prefix_rfl⟩

theorem ClassDecl.GrowsTo.trans {first second third : ClassDecl} (hlower : first.GrowsTo second)
    (hupper : second.GrowsTo third) : first.GrowsTo third :=
  ⟨hupper.id.trans hlower.id, hupper.name.trans hlower.name,
    hlower.members.trans hupper.members⟩

/-- A field that is declared is found in the longer member list as well. -/
theorem ClassDecl.GrowsTo.field?_isSome {earlier later : ClassDecl}
    (hgrow : earlier.GrowsTo later) {name : String}
    (hfound : (earlier.field? name).isSome = true) : (later.field? name).isSome = true := by
  have hfields : earlier.fields <+: later.fields := hgrow.members.filterMap Member.field?
  rw [ClassDecl.field?, List.find?_isSome] at hfound ⊢
  obtain ⟨field, hfield, hname⟩ := hfound
  exact ⟨field, hfields.subset hfield, hname⟩

/-- The class that the operation changes: the one it is given, or else the one it registers. -/
def Operation.changed (op : Operation) (h : Hierarchy) : ClassId :=
  op.target?.getD h.nextClassId

/-- The refusal blames something that no later step can remove. -/
inductive BuildError.Lasting : BuildError → Prop
  | nameTaken (name : String) : Lasting (.duplicateClassName name)
  | superclassSet (className : String) : Lasting (.superclassAlreadySet className)
  | cycle (className supertype : String) : Lasting (.inheritanceCycle className supertype)
  | fieldDeclared (className field : String) : Lasting (.duplicateField className field)

namespace Hierarchy

variable {h h' h'' : Hierarchy} {c d s : ClassId} {m : MethodId} {op : Operation}
  {ops : List Operation} {name : String} {refusal : BuildError}

/-! ## Extended hierarchies -/

/-- Whatever `h` says, `h'` says as well: it has more classes and methods, longer lists and more
superclasses, but nothing is taken back. -/
structure Extends (h h' : Hierarchy) : Prop where
  declared : ∀ c decl, h.class? c = some decl →
    ∃ decl', h'.class? c = some decl' ∧ decl.GrowsTo decl'
  superclass : ∀ c s, h.superclass? c = some s → h'.superclass? c = some s
  interfaces : ∀ c, h.interfaces c <+: h'.interfaces c
  method : ∀ m decl, h.method? m = some decl → h'.method? m = some decl

namespace Extends

theorem refl (h : Hierarchy) : h.Extends h :=
  ⟨fun _ decl hdecl => ⟨decl, hdecl, .refl decl⟩, fun _ _ hsuper => hsuper,
    fun _ => List.prefix_rfl, fun _ _ hm => hm⟩

theorem trans (hfirst : h.Extends h') (hsecond : h'.Extends h'') : h.Extends h'' where
  declared := by
    intro c decl hdecl
    obtain ⟨middle, hmiddle, hlower⟩ := hfirst.declared c decl hdecl
    obtain ⟨decl', hdecl', hupper⟩ := hsecond.declared c middle hmiddle
    exact ⟨decl', hdecl', hlower.trans hupper⟩
  superclass := fun c s hsuper => hsecond.superclass c s (hfirst.superclass c s hsuper)
  interfaces := fun c => (hfirst.interfaces c).trans (hsecond.interfaces c)
  method := fun m decl hm => hsecond.method m decl (hfirst.method m decl hm)

theorem className (hext : h.Extends h') (hname : h.className? c = some name) :
    h'.className? c = some name := by
  obtain ⟨decl, hdecl, rfl⟩ := Option.map_eq_some_iff.mp hname
  obtain ⟨decl', hdecl', hgrow⟩ := hext.declared c decl hdecl
  rw [className?, hdecl', Option.map_some, hgrow.name]

theorem directSupertype (hext : h.Extends h') (hdirect : h.DirectSupertype c s) :
    h'.DirectSupertype c s := by
  refine mem_directSupertypes_iff.mpr ?_
  rcases mem_directSupertypes_iff.mp hdirect with hsuper | hmem
  · exact Or.inl (hext.superclass c s hsuper)
  · exact Or.inr ((hext.interfaces c).subset hmem)

/-- A class that lies above another one stays above it. -/
theorem strictSupertype (hext : h.Extends h') (habove : h.StrictSupertype c s) :
    h'.StrictSupertype c s :=
  Relation.TransGen.mono (fun _ _ => hext.directSupertype) c s habove

end Extends

/-! ## One step -/

/-- A step leaves all classes but one as they are. -/
theorem registered?_of_apply (happly : op.apply h = .ok h') (hd : d ≠ op.changed h) :
    h'.registered? d = h.registered? d := by
  cases htarget : op.target? with
  | some c =>
      rw [Operation.changed, htarget, Option.getD_some] at hd
      exact (growsAt_of_apply happly htarget).other d hd
  | none =>
      rw [Operation.changed, htarget, Option.getD_none] at hd
      cases op with
      | addClass name =>
          obtain ⟨-, rfl⟩ := addClass_eq_ok_iff.mp happly
          rw [registered?_withClass, if_neg hd]
      | setSuperclass _ _ => simp [Operation.target?] at htarget
      | addInterface _ _ => simp [Operation.target?] at htarget
      | addField _ _ => simp [Operation.target?] at htarget
      | addMethod _ _ => simp [Operation.target?] at htarget

theorem growsTo_appendMember {decl : ClassDecl} (hdecl : h.class? d = some decl)
    (member : Member) :
    ∃ decl', (h.appendMember c member).class? d = some decl' ∧ decl.GrowsTo decl' := by
  rw [class?_appendMember, hdecl]
  by_cases hcd : c = d
  · rw [if_pos hcd]
    exact ⟨_, rfl, rfl, rfl, List.prefix_append decl.members [member]⟩
  · rw [if_neg hcd]
    exact ⟨decl, rfl, .refl decl⟩

/-- A step takes nothing away from a class. -/
theorem declared_of_apply (happly : op.apply h = .ok h') {decl : ClassDecl}
    (hdecl : h.class? d = some decl) :
    ∃ decl', h'.class? d = some decl' ∧ decl.GrowsTo decl' := by
  cases op with
  | addClass name =>
      obtain ⟨-, rfl⟩ := addClass_eq_ok_iff.mp happly
      have hold : d ≠ h.nextClassId := by
        rintro rfl
        rw [class?, registered?_nextClassId] at hdecl
        simp at hdecl
      exact ⟨decl, by rw [class?_withClass, if_neg hold, hdecl], .refl decl⟩
  | setSuperclass c s =>
      exact ⟨decl, by rw [class?_of_apply happly rfl, hdecl], .refl decl⟩
  | addInterface c i =>
      exact ⟨decl, by rw [class?_of_apply happly rfl, hdecl], .refl decl⟩
  | addField c field =>
      obtain ⟨-, rfl⟩ := addField_eq_ok_iff.mp happly
      exact growsTo_appendMember hdecl (.field field)
  | addMethod c spec =>
      obtain ⟨-, rfl⟩ := addMethod_eq_ok_iff.mp happly
      exact growsTo_appendMember hdecl (.method h.nextMethodId)

/-- A method is there after a step if it was there before or is the one that the step adds. -/
theorem method?_of_apply (happly : op.apply h = .ok h') {decl : MethodDecl} :
    h'.method? m = some decl ↔ h.method? m = some decl ∨
      ∃ c spec, op = .addMethod c spec ∧ m = h.nextMethodId ∧
        decl = ⟨spec, h.nextMethodId, c⟩ := by
  cases op with
  | addClass name =>
      obtain ⟨-, rfl⟩ := addClass_eq_ok_iff.mp happly
      simp
  | setSuperclass c s =>
      obtain ⟨-, rfl⟩ := setSuperclass_eq_ok_iff.mp happly
      simp [withSuperclass]
  | addInterface c i =>
      obtain ⟨-, rfl⟩ := addInterface_eq_ok_iff.mp happly
      simp [withInterface]
  | addField c field =>
      obtain ⟨-, rfl⟩ := addField_eq_ok_iff.mp happly
      simp [appendMember]
  | addMethod c spec =>
      obtain ⟨-, rfl⟩ := addMethod_eq_ok_iff.mp happly
      rw [method?_withMethod]
      by_cases hm : m = h.nextMethodId
      · have hfree : h.method? m = none := method?_eq_none_iff.mpr (hm ▸ Nat.le_refl _)
        rw [if_pos hm, hfree]
        simp [hm, eq_comm]
      · rw [if_neg hm]
        simp [hm]

theorem extends_of_apply (happly : op.apply h = .ok h') : h.Extends h' where
  declared := fun _ _ => declared_of_apply happly
  superclass := by
    intro c s hsuper
    have hlist := (supertypes_of_apply happly c).1
    rw [hsuper, Option.toList_some, List.singleton_append] at hlist
    cases hsuper' : h'.superclass? c with
    | none => simp [hsuper'] at hlist
    | some s' =>
        rw [hsuper', Option.toList_some] at hlist
        rw [(List.cons.inj hlist).1]
  interfaces := by
    intro c
    rw [(supertypes_of_apply happly c).2]
    exact List.prefix_append _ _
  method := fun _ _ hm => (method?_of_apply happly).mpr (Or.inl hm)

/-! ## Runs -/

theorem extends_performAll (h : Hierarchy) (ops : List Operation) :
    h.Extends (h.performAll ops) :=
  performAll_induction (fun _ _ _ hext happly => hext.trans (extends_of_apply happly))
    (.refl h) ops

/-! ## Refusals -/

/-- The way back that a refused edge would close does not vanish. -/
theorem edgeRefusal?_of_extends (hext : h.Extends h') (hwf : h.WellFormed) (hwf' : h'.WellFormed)
    (hlasting : refusal.Lasting) (hrefused : h.edgeRefusal? c s = some refusal) :
    h'.edgeRefusal? c s = some refusal := by
  rcases edgeRefusal?_eq_some_iff.mp hrefused with
    ⟨-, rfl⟩ | ⟨-, -, rfl⟩ | ⟨className, supertype, hc, hs, hback, rfl⟩
  · cases hlasting
  · cases hlasting
  · have hcount : s.index < h.classCount := exists_className?_iff.mp ⟨supertype, hs⟩
    have hs' : h'.className? s = some supertype := hext.className hs
    have hcount' : s.index < h'.classCount := exists_className?_iff.mp ⟨supertype, hs'⟩
    refine edgeRefusal?_eq_some_iff.mpr
      (Or.inr (Or.inr ⟨className, supertype, hext.className hc, hs', ?_, rfl⟩))
    rw [mem_upward_iff hwf.registered hcount] at hback
    rw [mem_upward_iff hwf'.registered hcount']
    exact hback.imp_right hext.strictSupertype

/-- A step that was refused for what is there is refused in every extension, and for the same
reason, unless a superclass has been set that is now the reason. -/
theorem apply_eq_error_of_extends (hext : h.Extends h') (hwf : h.WellFormed)
    (hwf' : h'.WellFormed) (hlasting : refusal.Lasting) (hrefused : op.apply h = .error refusal) :
    op.apply h' = .error refusal ∨
      ∃ c s name, op = .setSuperclass c s ∧ op.apply h' = .error (.superclassAlreadySet name) := by
  cases op with
  | addClass name =>
      obtain ⟨⟨c, hname⟩, rfl⟩ := addClass_eq_error_iff.mp hrefused
      exact Or.inl (addClass_eq_error_iff.mpr ⟨⟨c, hext.className hname⟩, rfl⟩)
  | setSuperclass c s =>
      have hcause := setSuperclass_eq_error_iff.mp hrefused
      rcases superclassRefusal?_eq_some_iff.mp hcause with
        ⟨taken, name, hsuper, hname, rfl⟩ | ⟨-, hedge⟩
      · refine Or.inl (setSuperclass_eq_error_iff.mpr (superclassRefusal?_eq_some_iff.mpr ?_))
        exact Or.inl ⟨taken, name, hext.superclass c taken hsuper, hext.className hname, rfl⟩
      · have hedge' := edgeRefusal?_of_extends hext hwf hwf' hlasting hedge
        cases hsuper' : h'.superclass? c with
        | none =>
            refine Or.inl (setSuperclass_eq_error_iff.mpr (superclassRefusal?_eq_some_iff.mpr ?_))
            exact Or.inr ⟨hsuper', hedge'⟩
        | some taken =>
            -- The class has got a superclass since, and that comes before the cycle.
            obtain ⟨name, hname⟩ :=
              exists_className?_iff.mpr (lt_classCount_of_superclass? hsuper')
            refine Or.inr ⟨c, s, name, rfl, ?_⟩
            refine setSuperclass_eq_error_iff.mpr (superclassRefusal?_eq_some_iff.mpr ?_)
            exact Or.inl ⟨taken, name, hsuper', hname, rfl⟩
  | addInterface c i =>
      have hedge := addInterface_eq_error_iff.mp hrefused
      exact Or.inl (addInterface_eq_error_iff.mpr
        (edgeRefusal?_of_extends hext hwf hwf' hlasting hedge))
  | addField c field =>
      rcases addField_eq_error_iff.mp hrefused with ⟨-, rfl⟩ | ⟨decl, hdecl, htaken, rfl⟩
      · cases hlasting
      · obtain ⟨decl', hdecl', hgrow⟩ := hext.declared c decl hdecl
        refine Or.inl (addField_eq_error_iff.mpr (Or.inr ⟨decl', hdecl', ?_, ?_⟩))
        · exact hgrow.field?_isSome htaken
        · rw [hgrow.name]
  | addMethod c spec =>
      obtain ⟨-, rfl⟩ := addMethod_eq_error_iff.mp hrefused
      cases hlasting

/-- A refused step changes nothing.  An accepted step takes nothing back, changes one class only and
adds methods to no other.  Over any run an identity keeps denoting the class or the method for which
it was issued, and what was refused for what is there stays refused. -/
theorem extends_and_refused_again (hreach : h.Reachable) (op : Operation) (ops : List Operation) :
    (∀ refusal, op.apply h = .error refusal → op.perform h = h) ∧
    (∀ h', op.apply h = .ok h' → h.Extends h' ∧
      (∀ d, d ≠ op.changed h → h'.registered? d = h.registered? d) ∧
      ∀ m decl, h'.method? m = some decl → h.method? m = some decl ∨ decl.owner = op.changed h) ∧
    h.Extends (h.performAll ops) ∧
    (∀ name h', h.addClass name = .ok h' →
      h.class? h.nextClassId = none ∧
        (h'.performAll ops).className? h.nextClassId = some name) ∧
    (∀ c spec h', h.addMethod c spec = .ok h' →
      h.method? h.nextMethodId = none ∧
        (h'.performAll ops).method? h.nextMethodId = some ⟨spec, h.nextMethodId, c⟩) ∧
    (∀ refusal, refusal.Lasting → op.apply h = .error refusal →
      op.apply (h.performAll ops) = .error refusal ∨
        ∃ c s name, op = .setSuperclass c s ∧
          op.apply (h.performAll ops) = .error (.superclassAlreadySet name)) := by
  refine ⟨fun _ => perform_of_apply_eq_error, fun h' happly => ⟨extends_of_apply happly,
    fun d hd => registered?_of_apply happly hd, fun m decl hm => ?_⟩, extends_performAll h ops,
    fun name h' hadd => ⟨class?_eq_none_iff.mpr (Nat.le_refl _), ?_⟩,
    fun c spec h' hadd => ⟨method?_eq_none_iff.mpr (Nat.le_refl _), ?_⟩,
    fun refusal hlasting hrefused => ?_⟩
  · rcases (method?_of_apply happly).mp hm with hold | ⟨c, spec, rfl, -, rfl⟩
    · exact Or.inl hold
    · exact Or.inr rfl
  · obtain ⟨-, rfl⟩ := addClass_eq_ok_iff.mp hadd
    refine (extends_performAll _ ops).className ?_
    rw [className?_withClass, if_pos rfl]
  · obtain ⟨-, rfl⟩ := addMethod_eq_ok_iff.mp hadd
    refine (extends_performAll _ ops).method _ _ ?_
    rw [method?_withMethod, if_pos rfl]
  · exact apply_eq_error_of_extends (extends_performAll h ops) hreach.wellFormed
      (hreach.performAll ops).wellFormed hlasting hrefused

/-- Three classes, of which `Lower` extends `Upper`. -/
def lowerUpper : List Operation := [
  .addClass "Upper", .addClass "Lower", .addClass "Root", .setSuperclass ⟨1⟩ ⟨0⟩]

theorem extends_and_refused_again_lowerUpper :
    (after lowerUpper).Reachable ∧
      (Operation.setSuperclass ⟨0⟩ ⟨1⟩).apply (after lowerUpper) =
        .error (.inheritanceCycle "Upper" "Lower") ∧
      (after lowerUpper).Extends ((after lowerUpper).performAll [.setSuperclass ⟨0⟩ ⟨2⟩]) ∧
      (Operation.setSuperclass ⟨0⟩ ⟨1⟩).apply
          ((after lowerUpper).performAll [.setSuperclass ⟨0⟩ ⟨2⟩]) =
        .error (.superclassAlreadySet "Upper") ∧
      ((Operation.setSuperclass ⟨0⟩ ⟨1⟩).apply
          ((after lowerUpper).performAll [.setSuperclass ⟨0⟩ ⟨2⟩]) =
        .error (.inheritanceCycle "Upper" "Lower") ∨
      ∃ c s name, Operation.setSuperclass ⟨0⟩ ⟨1⟩ = .setSuperclass c s ∧
        (Operation.setSuperclass ⟨0⟩ ⟨1⟩).apply
            ((after lowerUpper).performAll [.setSuperclass ⟨0⟩ ⟨2⟩]) =
          .error (.superclassAlreadySet name)) := by
  have hreach : (after lowerUpper).Reachable := ⟨lowerUpper, rfl⟩
  have hrefused : (Operation.setSuperclass ⟨0⟩ ⟨1⟩).apply (after lowerUpper) =
      .error (.inheritanceCycle "Upper" "Lower") := by cbv
  have hagain : (Operation.setSuperclass ⟨0⟩ ⟨1⟩).apply
      ((after lowerUpper).performAll [.setSuperclass ⟨0⟩ ⟨2⟩]) =
        .error (.superclassAlreadySet "Upper") := by cbv
  obtain ⟨-, -, hextends, -, -, hstays⟩ := extends_and_refused_again hreach
    (.setSuperclass ⟨0⟩ ⟨1⟩) [.setSuperclass ⟨0⟩ ⟨2⟩]
  exact ⟨hreach, hrefused, hextends, hagain, hstays _ (.cycle "Upper" "Lower") hrefused⟩

end Hierarchy

end FieldContracts
