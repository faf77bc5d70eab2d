import FieldContracts.Hierarchy.FieldLookup
import FieldContracts.Proofs.Hierarchy.SupertypeEdges
import Mathlib.Data.List.Perm.Subperm

/-!
# The nearest declaration of a field

`NearestField` says without a bound which declaration a class sees under a name.
`resolveField_eq_some_iff` says that the look-up, which stops after as many classes as there are,
finds exactly this one: `depth`, the number of classes above a class, falls with every step upward
and never exceeds that bound.
-/

namespace FieldContracts

namespace Hierarchy

variable {h : Hierarchy} {c s : ClassId} {name : String} {r : ResolvedField}

/-! ## Depth -/

/-- The number of classes above a class. -/
def depth (h : Hierarchy) (c : ClassId) : Nat := (h.above c).length

/-- Registered classes that are listed without repetition are no more than there are. -/
theorem length_le_classCount {cs : List ClassId} (hnodup : cs.Nodup) (hsubset : cs ⊆ h.classIds) :
    cs.length ≤ h.classCount := by
  calc cs.length ≤ h.classIds.length := (List.subperm_of_subset hnodup hsubset).length_le
    _ = h.classCount := by simp [classIds]

theorem depth_le_classCount (h : Hierarchy) (c : ClassId) : h.depth c ≤ h.classCount := by
  have hsubset : h.above c ⊆ h.classIds := fun x hx => mem_classIds.mpr (new_of_mem_preorder hx).1
  exact length_le_classCount (nodup_preorder _ _) hsubset

/-- A direct supertype has fewer classes above it. -/
theorem WellFormed.depth_lt (hwf : h.WellFormed) (hdirect : h.DirectSupertype c s) :
    h.depth s < h.depth c := by
  have hnot : s ∉ h.above s := fun hs =>
    hwf.irreflexive s ((mem_above_iff hwf.registered).mp hs)
  -- The upper class and all classes above it lie above `c`, and none is counted twice.
  have hnodup : (s :: h.above s).Nodup := List.nodup_cons.mpr ⟨hnot, nodup_preorder _ _⟩
  have hsubset : s :: h.above s ⊆ h.above c := by
    intro x hx
    rw [mem_above_iff hwf.registered]
    rcases List.mem_cons.mp hx with rfl | hx
    · exact .single hdirect
    · exact .trans (.single hdirect) ((mem_above_iff hwf.registered).mp hx)
  have hlength := (List.subperm_of_subset hnodup hsubset).length_le
  rw [List.length_cons] at hlength
  exact hlength

theorem WellFormed.depth_lt_of_strictSupertype (hwf : h.WellFormed)
    (habove : h.StrictSupertype c s) : h.depth s < h.depth c := by
  induction habove with
  | single hlast => exact hwf.depth_lt hlast
  | tail _ hlast ih => exact Nat.lt_trans (hwf.depth_lt hlast) ih

theorem directSupertype_of_superclass? (hsuper : h.superclass? c = some s) :
    h.DirectSupertype c s :=
  mem_directSupertypes_iff.mpr (Or.inl hsuper)

/-! ## The nearest declaration -/

/-- The declaration of the field that a class sees: its own if it has one, and otherwise the one
that its superclass sees. -/
inductive NearestField (h : Hierarchy) (name : String) : ClassId → ResolvedField → Prop
  | own {c : ClassId} {field : FieldDecl} (hown : h.declaredField? c name = some field) :
      NearestField h name c ⟨c, field⟩
  | inherited {c s : ClassId} {r : ResolvedField} (hnone : h.declaredField? c name = none)
      (hsuper : h.superclass? c = some s) (habove : NearestField h name s r) :
      NearestField h name c r

/-- The declaration that a class sees is one of its owner's fields of this name. -/
theorem NearestField.declared (hnear : h.NearestField name c r) :
    ∃ decl, h.class? r.owner = some decl ∧ r.field ∈ decl.fields ∧ r.field.name = name := by
  induction hnear with
  | own hown =>
      obtain ⟨decl, hdecl, hfield⟩ := Option.bind_eq_some_iff.mp hown
      have hname := List.find?_some hfield
      exact ⟨decl, hdecl, List.mem_of_find?_eq_some hfield, by simpa using hname⟩
  | inherited _ _ _ ih => exact ih

/-- The nearest of the declarations on the first classes of the chain of superclasses. -/
theorem nearestField_of_superclassesUpTo {bound : Nat}
    (hfound : ((h.superclassesUpTo bound c).findSome? fun owner =>
      (h.declaredField? owner name).map (ResolvedField.mk owner)) = some r) :
    h.NearestField name c r := by
  induction bound generalizing c with
  | zero => simp [superclassesUpTo] at hfound
  | succ bound ih =>
      rw [superclassesUpTo, List.findSome?_cons] at hfound
      cases hown : h.declaredField? c name with
      | some field =>
          simp only [hown, Option.map_some, Option.some.injEq] at hfound
          exact hfound ▸ .own hown
      | none =>
          simp only [hown, Option.map_none] at hfound
          cases hsuper : h.superclass? c with
          | none => simp [hsuper] at hfound
          | some s =>
              simp only [hsuper] at hfound
              exact .inherited hown hsuper (ih hfound)

/-- A bound above the depth of the class is large enough for the search. -/
theorem NearestField.superclassesUpTo (hwf : h.WellFormed) (hnear : h.NearestField name c r)
    {bound : Nat} (hbound : h.depth c < bound) :
    ((h.superclassesUpTo bound c).findSome? fun owner =>
      (h.declaredField? owner name).map (ResolvedField.mk owner)) = some r := by
  -- The depth falls with each step upward, so the bound does not run out before the search ends.
  induction hnear generalizing bound with
  | own hown =>
      cases bound with
      | zero => omega
      | succ bound => simp [Hierarchy.superclassesUpTo, hown]
  | @inherited c s r hnone hsuper habove ih =>
      cases bound with
      | zero => omega
      | succ bound =>
          have hlt : h.depth s < h.depth c :=
            hwf.depth_lt (directSupertype_of_superclass? hsuper)
          have hrest := ih (show h.depth s < bound by omega)
          simpa [Hierarchy.superclassesUpTo, hnone, hsuper] using hrest

/-- The look-up finds exactly the nearest declaration. -/
theorem resolveField_eq_some_iff (hwf : h.WellFormed) :
    h.resolveField c name = some r ↔ h.NearestField name c r := by
  constructor
  · exact nearestField_of_superclassesUpTo
  · intro hnear
    exact hnear.superclassesUpTo hwf (Nat.lt_succ_of_le (depth_le_classCount h c))

theorem resolveField_isSome_iff (hwf : h.WellFormed) :
    (h.resolveField c name).isSome = true ↔ ∃ r, h.NearestField name c r := by
  rw [Option.isSome_iff_exists]
  exact exists_congr fun _ => resolveField_eq_some_iff hwf

/-- A class sees at most one declaration under a name. -/
theorem NearestField.unique {r' : ResolvedField} (hr : h.NearestField name c r)
    (hr' : h.NearestField name c r') : r = r' := by
  induction hr with
  | own hown =>
      cases hr' with
      | own hown' => simp_all
      | inherited hnone' _ _ => simp_all
  | inherited hnone hsuper _ ih =>
      cases hr' with
      | own hown' => simp_all
      | inherited _ hsuper' habove' =>
          rw [hsuper, Option.some.injEq] at hsuper'
          exact ih (hsuper' ▸ habove')

end Hierarchy

end FieldContracts
