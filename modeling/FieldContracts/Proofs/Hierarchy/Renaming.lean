import FieldContracts.Proofs.Hierarchy.Coherence
import FieldContracts.Proofs.Hierarchy.OverrideSearch
import Mathlib.Data.List.Find

/-!
# Hierarchies that agree up to identities

`RenamedTo h h' scope ρ` says that `h'` says of the renamed classes of `scope` what `h` says of the
classes themselves.  Of other classes it says nothing, so the two hierarchies may differ there.
Look-ups that only go upward never leave such a scope, and so they commute with the renaming:
`preorder_renamed` is the step for the walk, `resolveField_renamed` and
`closestOverridden?_renamed` follow.
-/

namespace FieldContracts

/-- New identities for classes and methods. -/
structure Renaming where
  onClass : ClassId → ClassId
  onMethod : MethodId → MethodId

/-- The same field, declared by the renamed class. -/
def Renaming.resolvedField (ρ : Renaming) (r : ResolvedField) : ResolvedField :=
  ⟨ρ.onClass r.owner, r.field⟩

namespace Hierarchy

/-- On the classes of `scope` the two hierarchies agree up to the renaming. -/
structure RenamedTo (h h' : Hierarchy) (scope : ClassId → Prop) (ρ : Renaming) : Prop where
  upward : ∀ c s, scope c → h.DirectSupertype c s → scope s
  injective : ∀ c d, scope c → scope d → ρ.onClass c = ρ.onClass d → c = d
  className : ∀ c, scope c → h'.className? (ρ.onClass c) = h.className? c
  superclass : ∀ c, scope c → h'.superclass? (ρ.onClass c) = (h.superclass? c).map ρ.onClass
  interfaces : ∀ c, scope c → h'.interfaces (ρ.onClass c) = (h.interfaces c).map ρ.onClass
  declaredField : ∀ c name, scope c →
    h'.declaredField? (ρ.onClass c) name = h.declaredField? c name
  declaredMethods : ∀ c, scope c →
    h'.declaredMethods (ρ.onClass c) = (h.declaredMethods c).map ρ.onMethod
  method : ∀ m decl, h.method? m = some decl → scope decl.owner →
    h'.method? (ρ.onMethod m) =
      some { decl with id := ρ.onMethod m, owner := ρ.onClass decl.owner }

namespace RenamedTo

variable {h h' : Hierarchy} {scope : ClassId → Prop} {ρ : Renaming} {c s : ClassId} {m : MethodId}
  {name : String} {signature : Signature}

/-! ## Walking upward -/

theorem lt_classCount_iff (hren : h.RenamedTo h' scope ρ) (hc : scope c) :
    (ρ.onClass c).index < h'.classCount ↔ c.index < h.classCount := by
  rw [← exists_className?_iff, ← exists_className?_iff, hren.className c hc]

theorem mem_map_iff (hren : h.RenamedTo h' scope ρ) (hc : scope c) {classes : List ClassId}
    (hclasses : ∀ d ∈ classes, scope d) :
    ρ.onClass c ∈ classes.map ρ.onClass ↔ c ∈ classes := by
  constructor
  · intro hmem
    obtain ⟨d, hd, heq⟩ := List.mem_map.mp hmem
    have hsame : d = c := hren.injective d c (hclasses d hd) hc heq
    exact hsame ▸ hd
  · exact List.mem_map_of_mem

theorem directSupertypes_renamed (hren : h.RenamedTo h' scope ρ) (hc : scope c) :
    h'.directSupertypes (ρ.onClass c) = (h.directSupertypes c).map ρ.onClass := by
  unfold directSupertypes
  rw [hren.superclass c hc, hren.interfaces c hc, List.map_append]
  cases h.superclass? c with
  | none => rfl
  | some s => rfl

/-- The walk meets the renamed classes in the same order. -/
theorem preorder_renamed (hren : h.RenamedTo h' scope ρ) {pending seen : List ClassId}
    (hpending : ∀ c ∈ pending, scope c) (hseen : ∀ c ∈ seen, scope c) :
    h'.preorder (pending.map ρ.onClass) (seen.map ρ.onClass) =
      (h.preorder pending seen).map ρ.onClass := by
  fun_induction h.preorder pending seen with
  | case1 seen => rw [List.map_nil, preorder_nil]
  | case2 seen c rest hnew ih =>
      have hc : scope c := hpending c List.mem_cons_self
      have hcount : (ρ.onClass c).index < h'.classCount := (hren.lt_classCount_iff hc).mpr hnew.1
      -- Two classes of the scope are not renamed to one, so a new class stays new.
      have hfresh : ρ.onClass c ∉ seen.map ρ.onClass := by
        rw [hren.mem_map_iff hc hseen]
        exact hnew.2
      have hnext : ∀ d ∈ h.directSupertypes c ++ rest, scope d := by
        intro d hd
        rcases List.mem_append.mp hd with hd | hd
        · exact hren.upward c d hc hd
        · exact hpending d (List.mem_cons_of_mem _ hd)
      have hmarked : ∀ d ∈ c :: seen, scope d := by
        intro d hd
        rcases List.mem_cons.mp hd with rfl | hd
        · exact hc
        · exact hseen d hd
      have hrest := ih hnext hmarked
      rw [List.map_append, ← hren.directSupertypes_renamed hc, List.map_cons] at hrest
      rw [List.map_cons, preorder_cons_of_new hcount hfresh, hrest, List.map_cons]
  | case3 seen c rest hold ih =>
      have hc : scope c := hpending c List.mem_cons_self
      have hold' : ¬ ((ρ.onClass c).index < h'.classCount ∧ ρ.onClass c ∉ seen.map ρ.onClass) := by
        rw [hren.lt_classCount_iff hc, hren.mem_map_iff hc hseen]
        exact hold
      rw [List.map_cons, preorder_cons_of_old hold']
      exact ih (fun d hd => hpending d (List.mem_cons_of_mem _ hd)) hseen

theorem above_renamed (hren : h.RenamedTo h' scope ρ) (hc : scope c) :
    h'.above (ρ.onClass c) = (h.above c).map ρ.onClass := by
  have hpending : ∀ s ∈ h.directSupertypes c, scope s := fun s hs => hren.upward c s hc hs
  have hseen : ∀ s ∈ ([] : List ClassId), scope s := fun _ hs => absurd hs List.not_mem_nil
  have hwalk := hren.preorder_renamed hpending hseen
  rw [← hren.directSupertypes_renamed hc] at hwalk
  exact hwalk

/-- Whatever lies above a class of the scope belongs to the scope. -/
theorem scope_of_strictSupertype (hren : h.RenamedTo h' scope ρ) (hc : scope c)
    (habove : h.StrictSupertype c s) : scope s := by
  induction habove with
  | single hlast => exact hren.upward _ _ hc hlast
  | tail _ hlast ih => exact hren.upward _ _ ih hlast

theorem scope_of_mem_above (hren : h.RenamedTo h' scope ρ) (hc : scope c) (hs : s ∈ h.above c) :
    scope s := by
  obtain ⟨d, hd, rfl | habove⟩ := reached_of_mem_preorder hs
  · exact hren.upward c s hc hd
  · exact hren.scope_of_strictSupertype (hren.upward c d hc hd) habove

/-! ## Overridden methods -/

theorem overridable?_renamed (hren : h.RenamedTo h' scope ρ) (hco : h.Coherent) (hc : scope c)
    (signature : Signature) :
    h'.overridable? signature (ρ.onClass c) = (h.overridable? signature c).map ρ.onMethod := by
  unfold overridable?
  rw [hren.declaredMethods c hc, List.find?_map]
  have hsame : ∀ m ∈ h.declaredMethods c,
      ((fun m => (h'.method? m).any fun decl =>
        !decl.isStatic && decl.signature == signature) ∘ ρ.onMethod) m =
      (h.method? m).any fun decl => !decl.isStatic && decl.signature == signature := by
    intro m hm
    obtain ⟨decl, hdecl, rfl⟩ := hco.owned c m hm
    rw [Function.comp_apply, hdecl, hren.method m decl hdecl hc]
    rfl
  rw [List.find?_congr hsame]

/-- The first match in renamed classes is the renamed first match. -/
theorem findSome?_overridable?_renamed (hren : h.RenamedTo h' scope ρ) (hco : h.Coherent)
    {classes : List ClassId} (hclasses : ∀ c ∈ classes, scope c) :
    (classes.map ρ.onClass).findSome? (h'.overridable? signature) =
      (classes.findSome? (h.overridable? signature)).map ρ.onMethod := by
  induction classes with
  | nil => rfl
  | cons c rest ih =>
      have hrest := ih fun d hd => hclasses d (List.mem_cons_of_mem _ hd)
      have hc := hren.overridable?_renamed hco (hclasses c List.mem_cons_self) signature
      rw [List.map_cons, List.findSome?_cons, List.findSome?_cons, hc]
      cases h.overridable? signature c with
      | none => exact hrest
      | some m => rfl

/-- The renamed method overrides the renamed overridden method. -/
theorem closestOverridden?_renamed (hren : h.RenamedTo h' scope ρ) (hco : h.Coherent)
    {decl : MethodDecl} (hm : h.method? m = some decl) (hscope : scope decl.owner) :
    h'.closestOverridden? (ρ.onMethod m) = (h.closestOverridden? m).map ρ.onMethod := by
  have hm' := hren.method m decl hm hscope
  cases hstatic : decl.isStatic with
  | true =>
      rw [closestOverridden?_of_static hm hstatic, closestOverridden?_of_static hm' hstatic]
      rfl
  | false =>
      rw [closestOverridden?_of_instance hm hstatic, closestOverridden?_of_instance hm' hstatic,
        hren.above_renamed hscope]
      exact hren.findSome?_overridable?_renamed hco fun s hs => hren.scope_of_mem_above hscope hs

/-- The owner of an overridden method belongs to the scope. -/
theorem scope_of_closestOverridden? (hren : h.RenamedTo h' scope ρ) (hwf : h.WellFormed)
    (hco : h.Coherent) {decl : MethodDecl} (hm : h.method? m = some decl)
    (hscope : scope decl.owner) {m' : MethodId} (hfound : h.closestOverridden? m = some m') :
    ∃ decl', h.method? m' = some decl' ∧ scope decl'.owner := by
  obtain ⟨s, hs, hmatch⟩ := mem_of_closestOverridden? hwf hm hfound
  obtain ⟨decl', hdecl', rfl⟩ := hco.owned s m' (mem_of_overridable? hmatch).1
  exact ⟨decl', hdecl', hren.scope_of_strictSupertype hscope hs⟩

/-! ## Fields -/

theorem nearestField_renamed (hren : h.RenamedTo h' scope ρ) (hc : scope c) {r : ResolvedField}
    (hnear : h.NearestField name c r) :
    h'.NearestField name (ρ.onClass c) (ρ.resolvedField r) := by
  induction hnear with
  | @own c field hown =>
      refine .own ?_
      rw [hren.declaredField c name hc]
      exact hown
  | @inherited c s r hnone hsuper habove ih =>
      refine .inherited (s := ρ.onClass s) ?_ ?_ ?_
      · rw [hren.declaredField c name hc]
        exact hnone
      · rw [hren.superclass c hc, hsuper]
        rfl
      · exact ih (hren.upward c s hc (directSupertype_of_superclass? hsuper))

/-- Every declaration that a renamed class sees is one that the class itself sees. -/
theorem exists_nearestField_of_renamed (hren : h.RenamedTo h' scope ρ) (hc : scope c)
    {d : ClassId} (hd : ρ.onClass c = d) {r' : ResolvedField}
    (hnear : h'.NearestField name d r') : ∃ r, h.NearestField name c r := by
  -- The derivation goes up in the renamed hierarchy, and `hd` keeps the class below it in view.
  induction hnear generalizing c with
  | @own d field hown =>
      rw [← hd, hren.declaredField c name hc] at hown
      exact ⟨⟨c, field⟩, .own hown⟩
  | @inherited d s' r' hnone hsuper habove ih =>
      rw [← hd, hren.declaredField c name hc] at hnone
      rw [← hd, hren.superclass c hc] at hsuper
      obtain ⟨s, hs, hs'⟩ := Option.map_eq_some_iff.mp hsuper
      have hscope : scope s := hren.upward c s hc (directSupertype_of_superclass? hs)
      obtain ⟨r, hr⟩ := ih hscope hs'
      exact ⟨r, .inherited hnone hs hr⟩

/-- The renamed class sees the same field, declared by the renamed owner. -/
theorem resolveField_renamed (hren : h.RenamedTo h' scope ρ) (hwf : h.WellFormed)
    (hwf' : h'.WellFormed) (hc : scope c) (name : String) :
    h'.resolveField (ρ.onClass c) name = (h.resolveField c name).map ρ.resolvedField := by
  cases hfound : h.resolveField c name with
  | some r =>
      have hnear : h.NearestField name c r := (resolveField_eq_some_iff hwf).mp hfound
      exact (resolveField_eq_some_iff hwf').mpr (hren.nearestField_renamed hc hnear)
  | none =>
      -- A find in the renamed hierarchy would come from one in the original.
      rw [Option.map_none, Option.eq_none_iff_forall_ne_some]
      intro r' hfound'
      have hnear' := (resolveField_eq_some_iff hwf').mp hfound'
      obtain ⟨r, hr⟩ := hren.exists_nearestField_of_renamed hc rfl hnear'
      rw [(resolveField_eq_some_iff hwf).mpr hr] at hfound
      exact absurd hfound (by simp)

end RenamedTo

end Hierarchy

end FieldContracts
