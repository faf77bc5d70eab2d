import FieldContracts.Proofs.Hierarchy.OverrideSearch
import FieldContracts.Proofs.Hierarchy.Representation
import Mathlib

/-!
# From a method to the methods it overrides

`overridable?_eq_some_iff` says what the first match of a class is in its member list, and
`DeclaredAbove` relates a method to one that is declared above it.  Going on from a method to the
one it overrides leads strictly upward (`declaredAbove_of_overrides`), so no method is met twice.
`closestOverridden?_sound_complete` puts this together with the search, which misses no class above
and prefers the nearest superclass.
-/

namespace FieldContracts

namespace Hierarchy

variable {h : Hierarchy} {c n : ClassId} {m m' : MethodId} {decl : MethodDecl}
  {signature : Signature}

/-! ## The first match of a class -/

/-- The method is registered with this signature, and it is not static. -/
def IsInstance (h : Hierarchy) (signature : Signature) (m : MethodId) : Prop :=
  ∃ decl, h.method? m = some decl ∧ decl.isStatic = false ∧ decl.signature = signature

/-- The method is the first one of this signature, not static, in the member list of the class. -/
def FirstInstance (h : Hierarchy) (signature : Signature) (c : ClassId) (m : MethodId) : Prop :=
  ∃ before after, h.members c = before ++ .method m :: after ∧ h.IsInstance signature m ∧
    ∀ k, .method k ∈ before → ¬ h.IsInstance signature k

theorem any_method?_iff :
    ((h.method? m).any fun decl => !decl.isStatic && decl.signature == signature) = true ↔
      h.IsInstance signature m := by
  simp only [Option.any_eq_true, Bool.and_eq_true, Bool.not_eq_true', beq_iff_eq, IsInstance]

/-- The search in a class finds the first match of its member list. -/
theorem overridable?_eq_some_iff :
    h.overridable? signature c = some m ↔ h.FirstInstance signature c m := by
  rw [overridable?, declaredMethods_eq_filterMap_members, List.find?_eq_some_iff_append]
  simp only [Bool.not_eq_true', ← Bool.not_eq_true, any_method?_iff]
  constructor
  · rintro ⟨hm, before, after, hsplit, hbefore⟩
    obtain ⟨front, back, hmembers, rfl, hback⟩ := List.filterMap_eq_append_iff.mp hsplit
    obtain ⟨fields, member, tail, rfl, hfields, hmember, -⟩ := List.filterMap_eq_cons_iff.mp hback
    obtain rfl : member = .method m := by
      cases member with
      | field field => simp [Member.methodId?] at hmember
      | method id => simpa [Member.methodId?] using hmember
    refine ⟨front ++ fields, tail, by rw [hmembers, List.append_assoc], hm, fun k hk => ?_⟩
    rcases List.mem_append.mp hk with hk | hk
    · exact hbefore k (List.mem_filterMap.mpr ⟨_, hk, rfl⟩)
    · exact absurd (hfields _ hk) (by simp [Member.methodId?])
  · rintro ⟨before, after, hmembers, hm, hbefore⟩
    refine ⟨hm, before.filterMap Member.methodId?, after.filterMap Member.methodId?, ?_, ?_⟩
    · rw [hmembers, List.filterMap_append, List.filterMap_cons]
      rfl
    · intro k hk
      obtain ⟨member, hmember, hid⟩ := List.mem_filterMap.mp hk
      cases member with
      | field field => simp [Member.methodId?] at hid
      | method id =>
          obtain rfl : id = k := Option.some.inj hid
          exact hbefore id hmember

/-! ## Methods declared above -/

/-- The method `m'` has the signature of `m`, is not static, and is declared in a class above. -/
def DeclaredAbove (h : Hierarchy) (m m' : MethodId) : Prop :=
  ∃ decl decl', h.method? m = some decl ∧ h.method? m' = some decl' ∧
    h.StrictSupertype decl.owner decl'.owner ∧ m' ∈ h.declaredMethods decl'.owner ∧
      decl'.isStatic = false ∧ decl'.signature = decl.signature

theorem DeclaredAbove.trans {m'' : MethodId} (hlower : h.DeclaredAbove m m')
    (hupper : h.DeclaredAbove m' m'') : h.DeclaredAbove m m'' := by
  obtain ⟨decl, middle, hm, hm', habove, -, -, hsignature⟩ := hlower
  obtain ⟨middle', decl'', hmiddle, hm'', habove', hlisted, hinst, hsignature'⟩ := hupper
  obtain rfl := Option.some.inj (hm'.symm.trans hmiddle)
  exact ⟨decl, decl'', hm, hm'', habove.trans habove', hlisted, hinst,
    hsignature'.trans hsignature⟩

/-- Without cycles no method is declared above itself. -/
theorem DeclaredAbove.ne (hwf : h.WellFormed) (habove : h.DeclaredAbove m m') : m' ≠ m := by
  rintro rfl
  obtain ⟨decl, decl', hm, hm', hstrict, -⟩ := habove
  obtain rfl := Option.some.inj (hm.symm.trans hm')
  exact hwf.irreflexive decl.owner hstrict

/-- The method that is found is declared above. -/
theorem declaredAbove_of_overrides (hwf : h.WellFormed) (hco : h.Coherent)
    (hfound : h.closestOverridden? m = some m') : h.DeclaredAbove m m' := by
  obtain ⟨decl, hm, -⟩ := Option.bind_eq_some_iff.mp hfound
  obtain ⟨s, hs, hmatch⟩ := mem_of_closestOverridden? hwf hm hfound
  obtain ⟨hlisted, decl', hm', hinst, hsignature⟩ := mem_of_overridable? hmatch
  obtain ⟨owned, howned, rfl⟩ := hco.owned s m' hlisted
  obtain rfl := Option.some.inj (hm'.symm.trans howned)
  exact ⟨decl, decl', hm, hm', hs, hlisted, hinst, hsignature⟩

/-! ## Going on upward -/

/-- The method that is reached from `m` by going on so many times to the overridden method. -/
def overriddenAfter (h : Hierarchy) (m : MethodId) : Nat → Option MethodId
  | 0 => some m
  | steps + 1 => (h.overriddenAfter m steps).bind h.closestOverridden?

/-- What is reached later is declared above what is reached earlier. -/
theorem declaredAbove_of_lt (hwf : h.WellFormed) (hco : h.Coherent) {i j : Nat} (hij : i < j)
    {a b : MethodId} (ha : h.overriddenAfter m i = some a) (hb : h.overriddenAfter m j = some b) :
    h.DeclaredAbove a b := by
  induction j generalizing b with
  | zero => exact absurd hij (Nat.not_lt_zero i)
  | succ j ih =>
      obtain ⟨last, hlast, hfound⟩ := Option.bind_eq_some_iff.mp hb
      have hstep : h.DeclaredAbove last b := declaredAbove_of_overrides hwf hco hfound
      rcases Nat.lt_succ_iff_lt_or_eq.mp hij with hlt | rfl
      · exact (ih hlt hlast).trans hstep
      · obtain rfl := Option.some.inj (ha.symm.trans hlast)
        exact hstep

/-! ## The chain of superclasses -/

/-- The class `n` declares a method of this signature, not static, and it is the nearest of the
superclasses of `c` that do. -/
def NearestSuperclass (h : Hierarchy) (signature : Signature) (c n : ClassId) : Prop :=
  h.SuperclassAbove c n ∧ h.DeclaresInstance signature n ∧
    ∀ a, h.SuperclassAbove c a → h.DeclaresInstance signature a → a = n ∨ h.SuperclassAbove n a

/-- If a superclass declares such a method, the first one of the nearest is found. -/
theorem closestOverridden?_of_superclass (hwf : h.WellFormed) (hco : h.Coherent)
    (hm : h.method? m = some decl) (hinst : decl.isStatic = false)
    (hsuper : ∃ a, h.SuperclassAbove decl.owner a ∧ h.DeclaresInstance decl.signature a) :
    ∃ n m', h.NearestSuperclass decl.signature decl.owner n ∧
      h.FirstInstance decl.signature n m' ∧ h.closestOverridden? m = some m' := by
  obtain ⟨a, hchain, hdeclares⟩ := hsuper
  obtain ⟨k, hk⟩ := exists_overridable?_iff.mpr hdeclares
  obtain ⟨n, m', hn, hfound, hclosest, -⟩ := closestOverridden?_on_chain hwf hm hinst hchain hk
  have hlisted := (mem_of_overridable? hfound).1
  refine ⟨n, m', ⟨hn, exists_overridable?_iff.mp ⟨m', hfound⟩, fun b hb hbdeclares => ?_⟩,
    overridable?_eq_some_iff.mp hfound, hclosest⟩
  -- From every class on the chain the same method is found, and it has one owner.
  obtain ⟨k', hk'⟩ := exists_overridable?_iff.mpr hbdeclares
  obtain ⟨n', found', -, hfound', hclosest', hbelow⟩ :=
    closestOverridden?_on_chain hwf hm hinst hb hk'
  obtain rfl := Option.some.inj (hclosest.symm.trans hclosest')
  obtain ⟨first, hfirst, rfl⟩ := hco.owned n m' hlisted
  obtain ⟨second, hsecond, rfl⟩ := hco.owned n' m' (mem_of_overridable? hfound').1
  obtain rfl := Option.some.inj (hfirst.symm.trans hsecond)
  exact hbelow.imp Eq.symm id

/-- A method is found exactly if some class above declares one of the signature, not static; what is
found is one of these and not the method itself; no method is met twice on the way upward; and a
superclass that declares such a method decides, the nearest one first, whatever the interfaces
declare. -/
theorem closestOverridden?_sound_complete (hreach : h.Reachable) (m : MethodId) :
    ((∃ m', h.closestOverridden? m = some m') ↔
      ∃ decl, h.method? m = some decl ∧ decl.isStatic = false ∧
        ∃ s, h.StrictSupertype decl.owner s ∧ h.DeclaresInstance decl.signature s) ∧
    (∀ m', h.closestOverridden? m = some m' → h.DeclaredAbove m m' ∧ m' ≠ m) ∧
    (∀ i j a, h.overriddenAfter m i = some a → h.overriddenAfter m j = some a → i = j) ∧
    ∀ decl, h.method? m = some decl → decl.isStatic = false →
      (∃ a, h.SuperclassAbove decl.owner a ∧ h.DeclaresInstance decl.signature a) →
        ∃ n m', h.NearestSuperclass decl.signature decl.owner n ∧
          h.FirstInstance decl.signature n m' ∧ h.closestOverridden? m = some m' := by
  have hwf : h.WellFormed := hreach.wellFormed
  have hco : h.Coherent := hreach.coherent
  refine ⟨⟨?_, ?_⟩, ?_, ?_, ?_⟩
  · rintro ⟨m', hfound⟩
    obtain ⟨decl, decl', hm, hm', habove, hlisted, hinst, hsignature⟩ :=
      declaredAbove_of_overrides hwf hco hfound
    exact ⟨decl, hm, instance_of_closestOverridden? hm hfound, decl'.owner, habove,
      m', hlisted, decl', hm', hinst, hsignature⟩
  · rintro ⟨decl, hm, hinst, s, habove, hdeclares⟩
    refine Option.ne_none_iff_exists'.mp fun hnone => ?_
    rcases (closestOverridden?_eq_none_iff hwf hm).mp hnone with hstatic | hnowhere
    · rw [hinst] at hstatic
      exact absurd hstatic (by simp)
    · exact hnowhere s habove hdeclares
  · intro m' hfound
    have habove : h.DeclaredAbove m m' := declaredAbove_of_overrides hwf hco hfound
    exact ⟨habove, habove.ne hwf⟩
  · intro i j a hi hj
    rcases Nat.lt_trichotomy i j with hlt | heq | hgt
    · exact absurd rfl ((declaredAbove_of_lt hwf hco hlt hi hj).ne hwf)
    · exact heq
    · exact absurd rfl ((declaredAbove_of_lt hwf hco hgt hj hi).ne hwf)
  · intro decl hm hinst hsuper
    exact closestOverridden?_of_superclass hwf hco hm hinst hsuper

/-- `Leaf.init` finds `Base.init`: the superclass in between declares only a static method of this
signature, `Base` declares one before the other, and the interface comes too late. -/
def markedLeaf : List Operation := [
  .addClass "Base", .addClass "Mid", .addClass "Leaf", .addClass "Marker",
  .addInterface ⟨2⟩ ⟨3⟩, .setSuperclass ⟨2⟩ ⟨1⟩, .setSuperclass ⟨1⟩ ⟨0⟩,
  .addMethod ⟨3⟩ ⟨⟨"init", []⟩, false, []⟩,
  .addMethod ⟨0⟩ ⟨⟨"init", []⟩, true, []⟩, .addField ⟨0⟩ ⟨"a", false⟩,
  .addMethod ⟨0⟩ ⟨⟨"init", []⟩, false, []⟩,
  .addMethod ⟨1⟩ ⟨⟨"init", []⟩, true, []⟩,
  .addMethod ⟨2⟩ ⟨⟨"init", []⟩, false, []⟩]

theorem closestOverridden?_sound_complete_markedLeaf :
    (after markedLeaf).Reachable ∧
      (∃ m', (after markedLeaf).closestOverridden? ⟨4⟩ = some m') ∧
      (after markedLeaf).DeclaredAbove ⟨4⟩ ⟨2⟩ ∧
      (∀ i j a, (after markedLeaf).overriddenAfter ⟨4⟩ i = some a →
        (after markedLeaf).overriddenAfter ⟨4⟩ j = some a → i = j) ∧
      ∃ n m', (after markedLeaf).NearestSuperclass ⟨"init", []⟩ ⟨2⟩ n ∧
        (after markedLeaf).FirstInstance ⟨"init", []⟩ n m' ∧
        (after markedLeaf).closestOverridden? ⟨4⟩ = some m' := by
  have hreach : (after markedLeaf).Reachable := ⟨markedLeaf, rfl⟩
  have hm : (after markedLeaf).method? ⟨4⟩ =
      some ⟨⟨⟨"init", []⟩, false, []⟩, ⟨4⟩, ⟨2⟩⟩ := by cbv
  have hlower : (after markedLeaf).superclass? ⟨2⟩ = some ⟨1⟩ := by cbv
  have hupper : (after markedLeaf).superclass? ⟨1⟩ = some ⟨0⟩ := by cbv
  have hbase : (after markedLeaf).overridable? ⟨"init", []⟩ ⟨0⟩ = some ⟨2⟩ := by cbv
  have hfound : (after markedLeaf).closestOverridden? ⟨4⟩ = some ⟨2⟩ := by cbv
  have hchain : (after markedLeaf).SuperclassAbove ⟨2⟩ ⟨0⟩ := .tail (.single hlower) hupper
  have hdeclares : (after markedLeaf).DeclaresInstance ⟨"init", []⟩ ⟨0⟩ :=
    ⟨⟨2⟩, mem_of_overridable? hbase⟩
  obtain ⟨hiff, hsound, honce, hsuper⟩ := closestOverridden?_sound_complete hreach ⟨4⟩
  exact ⟨hreach, hiff.mpr ⟨_, hm, rfl, ⟨0⟩, hchain.strictSupertype, hdeclares⟩,
    (hsound ⟨2⟩ hfound).1, honce, hsuper _ hm rfl ⟨⟨0⟩, hchain, hdeclares⟩⟩

end Hierarchy

end FieldContracts
