import FieldContracts.Proofs.Hierarchy.OverrideSearch

/-!
# Fields seen from two classes of a chain

A class sees at least as many fields as its superclasses do (`exists_nearestField_of_onChain`), but
under one name it may see another field, if a class in between declares the name again.
`resolveField_eq_iff` says that this is the only way in which the two views can part.
-/

namespace FieldContracts

namespace Hierarchy

variable {h : Hierarchy} {a b c d s : ClassId} {name : String} {r : ResolvedField}

/-- The class `s` stands on the chain of superclasses that starts at `c`; it may be `c` itself. -/
def OnChain (h : Hierarchy) : ClassId → ClassId → Prop :=
  Relation.ReflTransGen fun c s => h.superclass? c = some s

/-- Some class on the chain from `d` up to `a`, but not `a` itself, declares a field of this name. -/
def RedeclaredBelow (h : Hierarchy) (name : String) (d a : ClassId) : Prop :=
  ∃ b field, h.OnChain d b ∧ h.SuperclassAbove b a ∧ h.declaredField? b name = some field

/-! ## One step up the chain -/

/-- A class without a field of its own under a name sees what its superclass sees. -/
theorem nearestField_iff_of_superclass? (hnone : h.declaredField? c name = none)
    (hsuper : h.superclass? c = some s) :
    h.NearestField name c r ↔ h.NearestField name s r := by
  constructor
  · intro hnear
    cases hnear with
    | own hown =>
        rw [hnone] at hown
        cases hown
    | inherited _ hsuper' habove =>
        rw [hsuper, Option.some.injEq] at hsuper'
        exact hsuper' ▸ habove
  · exact .inherited hnone hsuper

/-- A class sees a field of its own or, if it has none, one that its superclass sees. -/
theorem exists_nearestField_of_superclass? (hsuper : h.superclass? c = some s)
    (hseen : ∃ r, h.NearestField name s r) : ∃ r, h.NearestField name c r := by
  cases hown : h.declaredField? c name with
  | some field => exact ⟨⟨c, field⟩, .own hown⟩
  | none =>
      obtain ⟨r, hnear⟩ := hseen
      exact ⟨r, .inherited hown hsuper hnear⟩

/-! ## The whole chain -/

/-- A field that a class sees is declared on the chain that starts there. -/
theorem NearestField.onChain (hnear : h.NearestField name c r) : h.OnChain c r.owner := by
  induction hnear with
  | own hown => exact .refl
  | inherited _ hsuper _ ih => exact .head hsuper ih

/-- Under a name that a superclass sees, the class itself sees some field. -/
theorem exists_nearestField_of_onChain (hchain : h.OnChain d a)
    (hseen : ∃ r, h.NearestField name a r) : ∃ r, h.NearestField name d r := by
  induction hchain using Relation.ReflTransGen.head_induction_on with
  | refl => exact hseen
  | head hsuper _ ih => exact exists_nearestField_of_superclass? hsuper ih

/-- The field that a class sees is declared at or below every class of the chain that declares the
name. -/
theorem exists_nearestField_below (hchain : h.OnChain d b) {field : FieldDecl}
    (hdeclared : h.declaredField? b name = some field) :
    ∃ r, h.NearestField name d r ∧ h.OnChain r.owner b := by
  induction hchain using Relation.ReflTransGen.head_induction_on with
  | refl => exact ⟨⟨b, field⟩, .own hdeclared, .refl⟩
  | @head c s hsuper hrest ih =>
      cases hown : h.declaredField? c name with
      | some nearer => exact ⟨⟨c, nearer⟩, .own hown, .head hsuper hrest⟩
      | none =>
          obtain ⟨r, hnear, hbelow⟩ := ih
          exact ⟨r, .inherited hown hsuper hnear, hbelow⟩

theorem declaredField?_eq_none_of_not_redeclaredBelow (hchain : h.SuperclassAbove d a)
    (hfree : ¬ h.RedeclaredBelow name d a) : h.declaredField? d name = none := by
  refine Option.eq_none_iff_forall_ne_some.mpr fun field hown => hfree ?_
  exact ⟨d, field, .refl, hchain, hown⟩

/-- If no class below `a` declares the name, the field seen from there is the one seen from `a`. -/
theorem nearestField_iff_of_not_redeclaredBelow (hchain : h.SuperclassAbove d a)
    (hfree : ¬ h.RedeclaredBelow name d a) :
    h.NearestField name d r ↔ h.NearestField name a r := by
  induction hchain using Relation.TransGen.head_induction_on with
  | single hsuper =>
      have hnone := declaredField?_eq_none_of_not_redeclaredBelow (.single hsuper) hfree
      exact nearestField_iff_of_superclass? hnone hsuper
  | @head c s hsuper hrest ih =>
      have hnone := declaredField?_eq_none_of_not_redeclaredBelow (.head hsuper hrest) hfree
      have hupper : ¬ h.RedeclaredBelow name s a := by
        rintro ⟨b, field, hb, hba, hdeclared⟩
        exact hfree ⟨b, field, .head hsuper hb, hba, hdeclared⟩
      exact (nearestField_iff_of_superclass? hnone hsuper).trans (ih hupper)

/-- A name that is declared again below `a` leads, from there, to a class below `a`. -/
theorem exists_resolveField_of_redeclaredBelow (hwf : h.WellFormed)
    (hredeclared : h.RedeclaredBelow name d a) :
    ∃ r, h.resolveField d name = some r ∧ h.OnChain d r.owner ∧ h.SuperclassAbove r.owner a := by
  obtain ⟨b, field, hdb, hba, hdeclared⟩ := hredeclared
  obtain ⟨r, hnear, hbelow⟩ := exists_nearestField_below hdb hdeclared
  exact ⟨r, (resolveField_eq_some_iff hwf).mpr hnear, hnear.onChain, .trans_right hbelow hba⟩

/-- A class and one of its superclasses see the same under a name, a field or nothing, exactly if no
class in between declares the name again. -/
theorem resolveField_eq_iff (hwf : h.WellFormed) (hchain : h.SuperclassAbove d a) :
    h.resolveField d name = h.resolveField a name ↔ ¬ h.RedeclaredBelow name d a := by
  constructor
  · intro hsame hredeclared
    obtain ⟨r, hd, -, hbelow⟩ := exists_resolveField_of_redeclaredBelow hwf hredeclared
    rw [hsame, resolveField_eq_some_iff hwf] at hd
    -- The owner of the field would stand above `a` as well as below it.
    have hcycle : h.SuperclassAbove a a := .trans_right hd.onChain hbelow
    exact hwf.irreflexive a hcycle.strictSupertype
  · intro hfree
    refine Option.ext fun r => ?_
    rw [resolveField_eq_some_iff hwf, resolveField_eq_some_iff hwf]
    exact nearestField_iff_of_not_redeclaredBelow hchain hfree

end Hierarchy

end FieldContracts
