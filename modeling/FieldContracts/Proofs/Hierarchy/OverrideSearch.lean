import FieldContracts.Proofs.Hierarchy.DepthFirst

/-!
# What the search for an overridden method finds

`closestOverridden?_eq_findSome?` ties the search to the plain recursion, and
`closestOverridden?_eq_none_iff` says that it misses no class above.
`exists_nearest_on_chain` is the reason why superclasses win: the plain recursion lists the whole
chain of superclasses before any interface.
-/

namespace FieldContracts

namespace Hierarchy

variable {h : Hierarchy} {c s a : ClassId} {m : MethodId} {decl : MethodDecl}
  {signature : Signature}

/-- The class `s` is reached from `c` along superclasses, in one step or more. -/
def SuperclassAbove (h : Hierarchy) : ClassId → ClassId → Prop :=
  Relation.TransGen fun c s => h.superclass? c = some s

theorem SuperclassAbove.strictSupertype (hchain : h.SuperclassAbove c a) :
    h.StrictSupertype c a :=
  Relation.TransGen.mono (fun _ _ => directSupertype_of_superclass?) c a hchain

/-- The class declares a method of this signature that is not static. -/
def DeclaresInstance (h : Hierarchy) (signature : Signature) (c : ClassId) : Prop :=
  ∃ m ∈ h.declaredMethods c, ∃ decl, h.method? m = some decl ∧
    decl.isStatic = false ∧ decl.signature = signature

/-- The first such method is one of them. -/
theorem mem_of_overridable? (hfound : h.overridable? signature c = some m) :
    m ∈ h.declaredMethods c ∧ ∃ decl, h.method? m = some decl ∧
      decl.isStatic = false ∧ decl.signature = signature := by
  refine ⟨List.mem_of_find?_eq_some hfound, ?_⟩
  have hmatch := List.find?_some hfound
  simpa only [Option.any_eq_true, Bool.and_eq_true, Bool.not_eq_true', beq_iff_eq] using hmatch

theorem overridable?_eq_none_iff :
    h.overridable? signature c = none ↔ ¬ h.DeclaresInstance signature c := by
  unfold overridable? DeclaresInstance
  rw [List.find?_eq_none]
  simp [Option.any_eq_true]

theorem exists_overridable?_iff :
    (∃ m, h.overridable? signature c = some m) ↔ h.DeclaresInstance signature c := by
  rw [← Option.ne_none_iff_exists', ne_eq, overridable?_eq_none_iff, not_not]

/-- An unknown class declares no method. -/
theorem overridable?_of_unknown (hc : h.classCount ≤ c.index) :
    h.overridable? signature c = none := by
  simp [overridable?, declaredMethods, class?_eq_none_iff.mpr hc]

/-- A static method overrides nothing. -/
theorem closestOverridden?_of_static (hm : h.method? m = some decl)
    (hstatic : decl.isStatic = true) : h.closestOverridden? m = none := by
  simp [closestOverridden?, hm, hstatic]

/-- A method that overrides another one is not static. -/
theorem instance_of_closestOverridden? (hm : h.method? m = some decl) {m' : MethodId}
    (hfound : h.closestOverridden? m = some m') : decl.isStatic = false := by
  cases hstatic : decl.isStatic with
  | false => rfl
  | true => simp [closestOverridden?_of_static hm hstatic] at hfound

theorem closestOverridden?_of_instance (hm : h.method? m = some decl)
    (hinst : decl.isStatic = false) :
    h.closestOverridden? m = (h.above decl.owner).findSome? (h.overridable? decl.signature) := by
  simp [closestOverridden?, hm, hinst]

/-- The search finds the first match of the plain recursion. -/
theorem closestOverridden?_eq_findSome? (hwf : h.WellFormed) (hm : h.method? m = some decl)
    (hinst : decl.isStatic = false) {order : List ClassId}
    (horder : h.DepthFirst (h.directSupertypes decl.owner) order) :
    h.closestOverridden? m = order.findSome? (h.overridable? decl.signature) := by
  rw [closestOverridden?_of_instance hm hinst]
  exact findSome?_preorder_eq hwf (fun _ => overridable?_of_unknown) (by simp) horder

/-- The search fails only if no class above declares such a method. -/
theorem closestOverridden?_eq_none_iff (hwf : h.WellFormed) (hm : h.method? m = some decl) :
    h.closestOverridden? m = none ↔ decl.isStatic = true ∨
      ∀ s, h.StrictSupertype decl.owner s → ¬ h.DeclaresInstance decl.signature s := by
  cases hstatic : decl.isStatic with
  | true => simp [closestOverridden?_of_static hm hstatic]
  | false =>
      rw [closestOverridden?_of_instance hm hstatic, List.findSome?_eq_none_iff]
      simp only [mem_above_iff hwf.registered, overridable?_eq_none_iff, Bool.false_eq_true,
        false_or]

/-- A method that is found is declared in a class above. -/
theorem mem_of_closestOverridden? (hwf : h.WellFormed) (hm : h.method? m = some decl)
    {m' : MethodId} (hfound : h.closestOverridden? m = some m') :
    ∃ s, h.StrictSupertype decl.owner s ∧ h.overridable? decl.signature s = some m' := by
  rw [closestOverridden?_of_instance hm (instance_of_closestOverridden? hm hfound)] at hfound
  obtain ⟨s, hs, hmatch⟩ := List.exists_of_findSome?_eq_some hfound
  exact ⟨s, (mem_above_iff hwf.registered).mp hs, hmatch⟩

/-- If some class on the chain of superclasses has an answer, the plain recursion finds that of the
nearest class on the chain that has one. -/
theorem exists_nearest_on_chain {β : Type} {f : ClassId → Option β} {answer : β}
    (hchain : h.SuperclassAbove c a) (hanswer : f a = some answer) {order : List ClassId}
    (horder : h.DepthFirst (h.directSupertypes c) order) :
    ∃ n found, h.SuperclassAbove c n ∧ f n = some found ∧ order.findSome? f = some found ∧
      (n = a ∨ h.SuperclassAbove n a) := by
  -- From the lower end of the chain: the recursion enters the superclass before all interfaces.
  induction hchain using Relation.TransGen.head_induction_on generalizing order with
  | single hsuper =>
      rw [directSupertypes, hsuper, Option.toList_some, List.singleton_append] at horder
      cases horder with
      | cons hbelow htail =>
          exact ⟨a, answer, .single hsuper, hanswer, by simp [hanswer], Or.inl rfl⟩
  | @head c s hsuper hrest ih =>
      rw [directSupertypes, hsuper, Option.toList_some, List.singleton_append] at horder
      cases horder with
      | cons hbelow htail =>
          cases hfs : f s with
          | some found =>
              exact ⟨s, found, .single hsuper, hfs, by simp [hfs], Or.inr hrest⟩
          | none =>
              obtain ⟨n, found, hn, hfn, hfirst, hna⟩ := ih hbelow
              refine ⟨n, found, .trans (.single hsuper) hn, hfn, ?_, hna⟩
              simp [hfs, hfirst]

/-- A match on the chain of superclasses decides the search, whatever the interfaces declare. -/
theorem closestOverridden?_on_chain (hwf : h.WellFormed) (hm : h.method? m = some decl)
    (hinst : decl.isStatic = false) (hchain : h.SuperclassAbove decl.owner a) {m' : MethodId}
    (hmatch : h.overridable? decl.signature a = some m') :
    ∃ n found, h.SuperclassAbove decl.owner n ∧
      h.overridable? decl.signature n = some found ∧ h.closestOverridden? m = some found ∧
      (n = a ∨ h.SuperclassAbove n a) := by
  obtain ⟨order, horder⟩ := hwf.exists_depthFirst (h.directSupertypes decl.owner)
  obtain ⟨n, found, hn, hfound, hfirst, hna⟩ := exists_nearest_on_chain hchain hmatch horder
  exact ⟨n, found, hn, hfound, by
    rw [closestOverridden?_eq_findSome? hwf hm hinst horder, hfirst], hna⟩

end Hierarchy

end FieldContracts
