import FieldContracts.Proofs.Hierarchy.NearestField
import FieldContracts.Proofs.Hierarchy.Refusals
import Mathlib

/-!
# What becomes of a new edge

`EdgeRefused` says without a search which edges between two classes are refused and for which
reason, and `EdgeFits` which ones are accepted.  `supertypeEdge_outcome` says that the two ways of
adding an edge keep to this: no edge is refused that fits, and none is accepted that would put a
class above itself.  Behind an accepted edge the classes above are those of
`strictSupertype_iff_of_new_edge`.
-/

namespace FieldContracts

namespace Hierarchy

variable {h h' : Hierarchy} {c s : ClassId} {refusal : BuildError}

/-! ## Edges that fit -/

/-- Why no edge may lead from `c` to `s`: an unknown end comes before a cycle, and the lower end
before the upper one. -/
inductive EdgeRefused (h : Hierarchy) (c s : ClassId) : BuildError → Prop
  | unknownLower (hc : h.class? c = none) : EdgeRefused h c s (.classNotFound c)
  | unknownUpper {lower : ClassDecl} (hc : h.class? c = some lower) (hs : h.class? s = none) :
      EdgeRefused h c s (.classNotFound s)
  | closesCycle {lower upper : ClassDecl} (hc : h.class? c = some lower)
      (hs : h.class? s = some upper) (hback : s = c ∨ h.StrictSupertype s c) :
      EdgeRefused h c s (.inheritanceCycle lower.name upper.name)

/-- Both classes are registered, and `c` is neither `s` nor above it. -/
structure EdgeFits (h : Hierarchy) (c s : ClassId) : Prop where
  lower : ∃ decl, h.class? c = some decl
  upper : ∃ decl, h.class? s = some decl
  distinct : s ≠ c
  noWayBack : ¬ h.StrictSupertype s c

/-- The walk from `s` upward meets `c` exactly if an edge from `c` to `s` would close a cycle. -/
theorem mem_upward_iff_wayBack (hwf : h.WellFormed) (hs : s.index < h.classCount) :
    c ∈ h.upward s ↔ s = c ∨ h.StrictSupertype s c := by
  rw [mem_upward_iff hwf.registered hs, eq_comm]

/-- The search for a way back refuses exactly the edges that are to be refused. -/
theorem edgeRefusal?_eq_some_iff_edgeRefused (hwf : h.WellFormed) :
    h.edgeRefusal? c s = some refusal ↔ h.EdgeRefused c s refusal := by
  rw [edgeRefusal?_eq_some_iff]
  constructor
  · rintro (⟨hc, rfl⟩ | ⟨hc, hs, rfl⟩ | ⟨className, supertype, hc, hs, hback, rfl⟩)
    · exact .unknownLower (class?_eq_none_iff.mpr hc)
    · obtain ⟨lower, hlower⟩ := exists_class?_iff.mpr hc
      exact .unknownUpper hlower (class?_eq_none_iff.mpr hs)
    · have hcount : s.index < h.classCount := exists_className?_iff.mp ⟨supertype, hs⟩
      obtain ⟨lower, hlower, rfl⟩ := Option.map_eq_some_iff.mp hc
      obtain ⟨upper, hupper, rfl⟩ := Option.map_eq_some_iff.mp hs
      exact .closesCycle hlower hupper ((mem_upward_iff_wayBack hwf hcount).mp hback)
  · intro hrefused
    cases hrefused with
    | unknownLower hc => exact Or.inl ⟨class?_eq_none_iff.mp hc, rfl⟩
    | unknownUpper hc hs =>
        exact Or.inr (Or.inl ⟨exists_class?_iff.mp ⟨_, hc⟩, class?_eq_none_iff.mp hs, rfl⟩)
    | @closesCycle lower upper hc hs hback =>
        have hcount : s.index < h.classCount := exists_class?_iff.mp ⟨upper, hs⟩
        refine Or.inr (Or.inr ⟨lower.name, upper.name, ?_, ?_, ?_, rfl⟩)
        · rw [className?, hc, Option.map_some]
        · rw [className?, hs, Option.map_some]
        · exact (mem_upward_iff_wayBack hwf hcount).mpr hback

theorem edgeRefusal?_eq_none_iff_edgeFits (hwf : h.WellFormed) :
    h.edgeRefusal? c s = none ↔ h.EdgeFits c s := by
  rw [edgeRefusal?_eq_none_iff]
  constructor
  · rintro ⟨hc, hs, hout⟩
    rw [mem_upward_iff_wayBack hwf hs, not_or] at hout
    exact ⟨exists_class?_iff.mpr hc, exists_class?_iff.mpr hs, hout.1, hout.2⟩
  · rintro ⟨hc, hs, hdistinct, hnoWayBack⟩
    have hcount : s.index < h.classCount := exists_class?_iff.mp hs
    refine ⟨exists_class?_iff.mp hc, hcount, ?_⟩
    rw [mem_upward_iff_wayBack hwf hcount, not_or]
    exact ⟨hdistinct, hnoWayBack⟩

/-! ## The two ways of adding an edge -/

theorem exists_addInterface_iff (hwf : h.WellFormed) :
    (∃ h', h.addInterface c s = .ok h') ↔ h.EdgeFits c s := by
  simp only [addInterface_eq_ok_iff, edgeRefusal?_eq_none_iff_edgeFits hwf, exists_and_left,
    exists_eq, and_true]

/-- A class without a superclass gets one whenever the edge fits. -/
theorem exists_setSuperclass_iff (hwf : h.WellFormed) (hfree : h.superclass? c = none) :
    (∃ h', h.setSuperclass c s = .ok h') ↔ h.EdgeFits c s := by
  simp only [setSuperclass_eq_ok_iff, edgeRefusal?_eq_none_iff_edgeFits hwf, hfree, true_and,
    exists_and_left, exists_eq, and_true]

theorem setSuperclass_eq_error_iff_edgeRefused (hwf : h.WellFormed)
    (hfree : h.superclass? c = none) :
    h.setSuperclass c s = .error refusal ↔ h.EdgeRefused c s refusal := by
  rw [setSuperclass_eq_error_iff, superclassRefusal?_eq_some_iff,
    ← edgeRefusal?_eq_some_iff_edgeRefused hwf]
  simp [hfree]

/-- A superclass that is there is blamed before the edge is looked at. -/
theorem exists_superclass?_iff (hwf : h.WellFormed) :
    (∃ taken, h.superclass? c = some taken) ↔
      ∃ name, h.className? c = some name ∧
        h.setSuperclass c s = .error (.superclassAlreadySet name) := by
  constructor
  · rintro ⟨taken, hsuper⟩
    obtain ⟨name, hname⟩ := exists_className?_iff.mpr (lt_classCount_of_superclass? hsuper)
    refine ⟨name, hname, setSuperclass_eq_error_iff.mpr (superclassRefusal?_eq_some_iff.mpr ?_)⟩
    exact Or.inl ⟨taken, name, hsuper, hname, rfl⟩
  · rintro ⟨name, -, hrefused⟩
    refine Option.ne_none_iff_exists'.mp fun hfree => ?_
    cases (setSuperclass_eq_error_iff_edgeRefused hwf hfree).mp hrefused

/-! ## The classes above after an accepted edge -/

/-- With one more edge, from `c` to `s`, a class lies above another one if some way of old relations
and uses of the edge leads there. -/
theorem strictSupertype_iff_of_new_edge
    (hnew : ∀ a b, h'.DirectSupertype a b ↔ h.DirectSupertype a b ∨ (a = c ∧ b = s))
    {a b : ClassId} :
    h'.StrictSupertype a b ↔
      Relation.TransGen (fun x y => h.StrictSupertype x y ∨ (x = c ∧ y = s)) a b := by
  constructor
  · refine Relation.TransGen.mono (fun x y hxy => ?_) a b
    exact ((hnew x y).mp hxy).imp_left .single
  · -- Each link of the way is itself a way in the new hierarchy.
    have hlink : ∀ x y, h.StrictSupertype x y ∨ (x = c ∧ y = s) → h'.StrictSupertype x y := by
      rintro x y (hold | hedge)
      · exact Relation.TransGen.mono (fun p q hpq => (hnew p q).mpr (Or.inl hpq)) x y hold
      · exact .single ((hnew x y).mpr (Or.inr hedge))
    intro hway
    induction hway with
    | single hlast => exact hlink _ _ hlast
    | tail _ hlast ih => exact ih.trans (hlink _ _ hlast)

/-- An accepted step that asks for an edge puts `s`, and what lies above it, above `c`. -/
theorem strictSupertype_of_apply {op : Operation} (happly : op.apply h = .ok h')
    {kind : SupertypeKind} (hedge : op.edge? = some ⟨kind, c, s⟩) {a b : ClassId} :
    h'.StrictSupertype a b ↔
      Relation.TransGen (fun x y => h.StrictSupertype x y ∨ (x = c ∧ y = s)) a b := by
  refine strictSupertype_iff_of_new_edge fun x y => ?_
  rw [directSupertype_of_apply happly, hedge]
  simp [SupertypeEdge.Joins, eq_comm]

/-- A class that has a superclass gets no other one, whatever is offered.  Otherwise an edge is
added exactly if it fits, and if not, the refusal names the first thing that is wrong with it.  The
classes above are then those that the old relation and the new edge lead to, and the upper end of the
edge is the superclass or the last of the interfaces. -/
theorem supertypeEdge_outcome (hreach : h.Reachable) (c s : ClassId) :
    ((∃ taken, h.superclass? c = some taken) ↔
      ∃ name, h.className? c = some name ∧
        h.setSuperclass c s = .error (.superclassAlreadySet name)) ∧
    (h.superclass? c = none →
      (∀ refusal, h.setSuperclass c s = .error refusal ↔ h.EdgeRefused c s refusal) ∧
      ((∃ h', h.setSuperclass c s = .ok h') ↔ h.EdgeFits c s)) ∧
    (∀ refusal, h.addInterface c s = .error refusal ↔ h.EdgeRefused c s refusal) ∧
    ((∃ h', h.addInterface c s = .ok h') ↔ h.EdgeFits c s) ∧
    (∀ h', h.setSuperclass c s = .ok h' ∨ h.addInterface c s = .ok h' →
      ∀ a b, h'.StrictSupertype a b ↔
        Relation.TransGen (fun x y => h.StrictSupertype x y ∨ (x = c ∧ y = s)) a b) ∧
    (∀ h', h.setSuperclass c s = .ok h' →
      h'.superclass? c = some s ∧ h'.interfaces c = h.interfaces c) ∧
    ∀ h', h.addInterface c s = .ok h' →
      h'.superclass? c = h.superclass? c ∧ h'.interfaces c = h.interfaces c ++ [s] := by
  have hwf : h.WellFormed := hreach.wellFormed
  refine ⟨exists_superclass?_iff hwf, fun hfree =>
    ⟨fun refusal => setSuperclass_eq_error_iff_edgeRefused hwf hfree,
      exists_setSuperclass_iff hwf hfree⟩, fun refusal => ?_, exists_addInterface_iff hwf,
    ?_, ?_, ?_⟩
  · rw [addInterface_eq_error_iff, edgeRefusal?_eq_some_iff_edgeRefused hwf]
  · rintro h' (hset | hadd) a b
    · have hstep : (Operation.setSuperclass c s).apply h = .ok h' := hset
      exact strictSupertype_of_apply hstep rfl
    · have hstep : (Operation.addInterface c s).apply h = .ok h' := hadd
      exact strictSupertype_of_apply hstep rfl
  · intro h' hset
    obtain ⟨⟨-, hedge⟩, rfl⟩ := setSuperclass_eq_ok_iff.mp hset
    have hc : c.index < h.classCount := (edgeRefusal?_eq_none_iff.mp hedge).1
    exact ⟨by rw [superclass?_withSuperclass hc, if_pos rfl], interfaces_withSuperclass⟩
  · intro h' hadd
    obtain ⟨hedge, rfl⟩ := addInterface_eq_ok_iff.mp hadd
    have hc : c.index < h.classCount := (edgeRefusal?_eq_none_iff.mp hedge).1
    exact ⟨superclass?_withInterface, by rw [interfaces_withInterface hc, if_pos rfl]⟩

/-- `Circle` extends `Shape` and implements `Drawable`. -/
def shapeCircle : List Operation := [
  .addClass "Shape", .addClass "Circle", .addClass "Drawable", .setSuperclass ⟨1⟩ ⟨0⟩,
  .addInterface ⟨1⟩ ⟨2⟩]

theorem supertypeEdge_outcome_shapeCircle :
    (after shapeCircle).Reachable ∧
      (∃ name, (after shapeCircle).className? ⟨1⟩ = some name ∧
        (after shapeCircle).setSuperclass ⟨1⟩ ⟨9⟩ = .error (.superclassAlreadySet name)) ∧
      (after shapeCircle).setSuperclass ⟨0⟩ ⟨1⟩ = .error (.inheritanceCycle "Shape" "Circle") ∧
      ∃ h', (after shapeCircle).addInterface ⟨0⟩ ⟨2⟩ = .ok h' ∧ h'.interfaces ⟨0⟩ = [⟨2⟩] ∧
        ∀ a b, h'.StrictSupertype a b ↔ Relation.TransGen
          (fun x y => (after shapeCircle).StrictSupertype x y ∨ (x = ⟨0⟩ ∧ y = ⟨2⟩)) a b := by
  have hreach : (after shapeCircle).Reachable := ⟨shapeCircle, rfl⟩
  have hsuper : (after shapeCircle).superclass? ⟨1⟩ = some ⟨0⟩ := by cbv
  have hfree : (after shapeCircle).superclass? ⟨0⟩ = none := by cbv
  have hshape : (after shapeCircle).class? ⟨0⟩ = some ⟨⟨0⟩, "Shape", []⟩ := by cbv
  have hcircle : (after shapeCircle).class? ⟨1⟩ = some ⟨⟨1⟩, "Circle", []⟩ := by cbv
  have hdrawable : (after shapeCircle).class? ⟨2⟩ = some ⟨⟨2⟩, "Drawable", []⟩ := by cbv
  have hnone : (after shapeCircle).interfaces ⟨0⟩ = [] := by cbv
  have htop : (after shapeCircle).above ⟨2⟩ = [] := by cbv
  have hfits : (after shapeCircle).EdgeFits ⟨0⟩ ⟨2⟩ := by
    refine ⟨⟨_, hshape⟩, ⟨_, hdrawable⟩, by decide, fun habove => ?_⟩
    have hmem := (mem_above_iff hreach.wellFormed.registered).mpr habove
    rw [htop] at hmem
    exact absurd hmem List.not_mem_nil
  have hback : (after shapeCircle).StrictSupertype ⟨1⟩ ⟨0⟩ :=
    .single (directSupertype_of_superclass? hsuper)
  obtain ⟨htaken, -⟩ := supertypeEdge_outcome hreach ⟨1⟩ ⟨9⟩
  obtain ⟨-, hset, -⟩ := supertypeEdge_outcome hreach ⟨0⟩ ⟨1⟩
  obtain ⟨-, -, -, hadd, hclosure, -, hlast⟩ := supertypeEdge_outcome hreach ⟨0⟩ ⟨2⟩
  obtain ⟨h', hok⟩ := hadd.mpr hfits
  refine ⟨hreach, htaken.mp ⟨_, hsuper⟩,
    ((hset hfree).1 _).mpr (.closesCycle hshape hcircle (Or.inr hback)), h', hok, ?_,
    hclosure h' (Or.inr hok)⟩
  rw [(hlast h' hok).2, hnone, List.nil_append]

end Hierarchy

end FieldContracts
