import FieldContracts.Proofs.Hierarchy.OverrideChain
import Mathlib

/-!
# Redefinitions between a method and the one it overrides

The search takes supertypes depth first, the superclass before the interfaces, so it may come to a
class before it comes to a subclass of it that redefines the method: `nearer_redefinition_missed`
has two such cases.  `redefinitions_behind_closestOverridden?` says what the order does promise.  On
some way upward to the method that is found no class redefines it, and no superclass redefines it in
between; a class that does lies behind, on a later branch that leads up to the class of the found
method once more.
-/

namespace FieldContracts

namespace Hierarchy

variable {h : Hierarchy} {c x y : ClassId} {cs order front back : List ClassId} {m m' : MethodId}
  {decl decl' : MethodDecl} {signature : Signature}

/-- The class lies strictly between the classes of the two methods, and it declares a method of the
same signature that is not static. -/
def RedefinesBetween (h : Hierarchy) (decl decl' : MethodDecl) (x : ClassId) : Prop :=
  h.StrictSupertype decl.owner x ∧ h.StrictSupertype x decl'.owner ∧
    h.DeclaresInstance decl.signature x

/-- A way upward from `c` to `x` on which no class strictly between redefines the method. -/
inductive ClearWay (h : Hierarchy) (signature : Signature) : ClassId → ClassId → Prop
  | step {c x : ClassId} (hdirect : h.DirectSupertype c x) : ClearWay h signature c x
  | climb {c d x : ClassId} (hdirect : h.DirectSupertype c d)
      (hclear : ¬ h.DeclaresInstance signature d) (hway : ClearWay h signature d x) :
      ClearWay h signature c x

namespace DepthFirst

/-- Behind each place of a class, all that lies above the class is listed. -/
theorem mem_behind (horder : h.DepthFirst cs order) (hsplit : order = front ++ x :: back)
    (habove : h.StrictSupertype x y) : y ∈ back := by
  induction horder generalizing front back with
  | nil => simp at hsplit
  | @cons c rest below tail hbelow htail ihbelow ihtail =>
      cases front with
      | nil =>
          obtain ⟨rfl, rfl⟩ := List.cons.inj hsplit
          exact List.mem_append_left _ (hbelow.mem_iff.mpr (strictSupertype_iff.mp habove))
      | cons d front =>
          obtain ⟨-, hrest⟩ := List.cons.inj hsplit
          rcases append_eq_append_cons hrest with ⟨mid, hmid, rfl⟩ | ⟨mid, -, hmid⟩
          · exact List.mem_append_left _ (ihbelow hmid)
          · exact ihtail hmid

/-- If no class in front of a place redefines the method, a way that is clear leads there. -/
theorem exists_clearWay (horder : h.DepthFirst cs order) (hsplit : order = front ++ x :: back)
    (hfront : ∀ y ∈ front, ¬ h.DeclaresInstance signature y) :
    ∃ c ∈ cs, x = c ∨ (¬ h.DeclaresInstance signature c ∧ h.ClearWay signature c x) := by
  induction horder generalizing front back with
  | nil => simp at hsplit
  | @cons c rest below tail _ _ ihbelow ihtail =>
      cases front with
      | nil =>
          obtain ⟨rfl, -⟩ := List.cons.inj hsplit
          exact ⟨c, List.mem_cons_self, Or.inl rfl⟩
      | cons d front =>
          obtain ⟨rfl, hrest⟩ := List.cons.inj hsplit
          rcases append_eq_append_cons hrest with ⟨mid, hmid, -⟩ | ⟨mid, rfl, hmid⟩
          · -- The place lies above `c`, which stands in front of it.
            have hbefore : ∀ y ∈ front, ¬ h.DeclaresInstance signature y := fun y hy =>
              hfront y (List.mem_cons_of_mem c hy)
            refine ⟨c, List.mem_cons_self, Or.inr ⟨hfront c List.mem_cons_self, ?_⟩⟩
            obtain ⟨d, hd, rfl | ⟨hclear, hway⟩⟩ := ihbelow hmid hbefore
            · exact .step hd
            · exact .climb hd hclear hway
          · have hbefore : ∀ y ∈ mid, ¬ h.DeclaresInstance signature y := fun y hy =>
              hfront y (List.mem_cons_of_mem c (List.mem_append_right below hy))
            obtain ⟨d, hd, hway⟩ := ihtail hmid hbefore
            exact ⟨d, List.mem_cons_of_mem c hd, hway⟩

end DepthFirst

/-- No superclass redefines the method strictly between. -/
theorem not_redefinesBetween_of_superclass (hwf : h.WellFormed) (hco : h.Coherent)
    (hm : h.method? m = some decl) (hm' : h.method? m' = some decl')
    (hfound : h.closestOverridden? m = some m') (hchain : h.SuperclassAbove decl.owner x) :
    ¬ h.RedefinesBetween decl decl' x := by
  rintro ⟨-, habove, hdeclares⟩
  have hinst : decl.isStatic = false := instance_of_closestOverridden? hm hfound
  obtain ⟨n, first, ⟨-, -, hnearest⟩, hfirst, hclosest⟩ :=
    closestOverridden?_of_superclass hwf hco hm hinst ⟨x, hchain, hdeclares⟩
  obtain rfl := Option.some.inj (hfound.symm.trans hclosest)
  -- The method that is found belongs to the nearest superclass, at or below `x`.
  have hlisted := (mem_of_overridable? (overridable?_eq_some_iff.mpr hfirst)).1
  obtain ⟨owned, howned, rfl⟩ := hco.owned n m' hlisted
  obtain rfl := Option.some.inj (hm'.symm.trans howned)
  rcases hnearest x hchain hdeclares with rfl | hbelow
  · exact hwf.irreflexive _ habove
  · exact hwf.irreflexive _ (habove.trans hbelow.strictSupertype)

/-- The plain listing of the classes above a method's class holds the class of the found method,
and no class in front of it redefines the method: neither do those strictly between on some way
upward, nor superclasses strictly between.  A class strictly between that does is listed behind,
and the class of the found method is then listed there again. -/
theorem redefinitions_behind_closestOverridden? (hreach : h.Reachable)
    (hm : h.method? m = some decl) (hfound : h.closestOverridden? m = some m') :
    ∃ decl' front back, h.method? m' = some decl' ∧
      h.DepthFirst (h.directSupertypes decl.owner) (front ++ decl'.owner :: back) ∧
      (∀ x ∈ front, ¬ h.DeclaresInstance decl.signature x) ∧
      h.ClearWay decl.signature decl.owner decl'.owner ∧
      ∀ x, h.RedefinesBetween decl decl' x →
        ¬ h.SuperclassAbove decl.owner x ∧ x ∈ back ∧ decl'.owner ∈ back := by
  have hwf : h.WellFormed := hreach.wellFormed
  have hco : h.Coherent := hreach.coherent
  have hinst : decl.isStatic = false := instance_of_closestOverridden? hm hfound
  obtain ⟨order, horder⟩ := hwf.exists_depthFirst (h.directSupertypes decl.owner)
  have hsearch := hfound
  rw [closestOverridden?_eq_findSome? hwf hm hinst horder, List.findSome?_eq_some_iff] at hsearch
  obtain ⟨front, a, back, rfl, hmatch, hfront⟩ := hsearch
  obtain ⟨decl', hm', rfl⟩ := hco.owned a m' (mem_of_overridable? hmatch).1
  have hclear : ∀ x ∈ front, ¬ h.DeclaresInstance decl.signature x := fun x hx =>
    overridable?_eq_none_iff.mp (hfront x hx)
  refine ⟨decl', front, back, hm', horder, hclear, ?_, fun x hx => ?_⟩
  · obtain ⟨d, hd, hway⟩ := horder.exists_clearWay rfl hclear
    rcases hway with heq | ⟨hdclear, hway⟩
    · exact .step (heq ▸ hd)
    · exact .climb hd hdclear hway
  · obtain ⟨hbelow, habove, hdeclares⟩ := hx
    have hbehind : x ∈ back := by
      rcases List.mem_append.mp (horder.mem_iff.mpr (strictSupertype_iff.mp hbelow)) with hx | hx
      · exact absurd hdeclares (hclear x hx)
      · rcases List.mem_cons.mp hx with rfl | hx
        · exact absurd habove (hwf.irreflexive _)
        · exact hx
    refine ⟨fun hchain => ?_, hbehind, ?_⟩
    · exact not_redefinesBetween_of_superclass hwf hco hm hm' hfound hchain
        ⟨hbelow, habove, hdeclares⟩
    · obtain ⟨mid, last, rfl⟩ := List.append_of_mem hbehind
      have hplace : front ++ decl'.owner :: (mid ++ x :: last) =
          (front ++ decl'.owner :: mid) ++ x :: last := by simp
      have hagain : decl'.owner ∈ last := horder.mem_behind hplace habove
      exact List.mem_append_right _ (List.mem_cons_of_mem x hagain)

/-- `Leaf` comes to `Readable` over its superclass `Base` first, and over `Seekable`, which extends
`Readable` and redefines `read`, only then.  `Readable` is itself the superclass of `Cursor`. -/
def seekable : List Operation := [
  .addClass "Readable", .addClass "Seekable", .addClass "Base", .addClass "Leaf",
  .addClass "Cursor",
  .addInterface ⟨1⟩ ⟨0⟩, .addInterface ⟨2⟩ ⟨0⟩, .setSuperclass ⟨3⟩ ⟨2⟩, .addInterface ⟨3⟩ ⟨1⟩,
  .setSuperclass ⟨4⟩ ⟨0⟩, .addInterface ⟨4⟩ ⟨1⟩,
  .addMethod ⟨0⟩ ⟨⟨"read", []⟩, false, []⟩,
  .addMethod ⟨1⟩ ⟨⟨"read", []⟩, false, []⟩,
  .addMethod ⟨3⟩ ⟨⟨"read", []⟩, false, []⟩,
  .addMethod ⟨4⟩ ⟨⟨"read", []⟩, false, []⟩]

/-- What `seekable` registers under this identity as `read` of this class. -/
def readOf (m : MethodId) (owner : ClassId) : MethodDecl :=
  ⟨⟨⟨"read", []⟩, false, []⟩, m, owner⟩

/-- `Seekable` redefines `read` between `Readable` and each class that has it as an interface. -/
theorem redefinesBetween_seekable {m : MethodId} {c : ClassId}
    (hinterface : (after seekable).DirectSupertype c ⟨1⟩) :
    (after seekable).RedefinesBetween (readOf m c) (readOf ⟨0⟩ ⟨0⟩) ⟨1⟩ := by
  have hmiddle : (after seekable).directSupertypes ⟨1⟩ = [⟨0⟩] := by cbv
  have hredefined : (after seekable).overridable? ⟨"read", []⟩ ⟨1⟩ = some ⟨1⟩ := by cbv
  have habove : (after seekable).DirectSupertype ⟨1⟩ ⟨0⟩ := by simp [DirectSupertype, hmiddle]
  exact ⟨.single hinterface, .single habove, ⟨1⟩, mem_of_overridable? hredefined⟩

theorem directSupertype_leaf_seekable : (after seekable).DirectSupertype ⟨3⟩ ⟨1⟩ := by
  have hleaf : (after seekable).directSupertypes ⟨3⟩ = [⟨2⟩, ⟨1⟩] := by cbv
  simp [DirectSupertype, hleaf]

/-- The method found for `Leaf.read` and for `Cursor.read` is that of `Readable`, although
`Seekable` lies strictly between and redefines it.  For `Cursor` the superclass comes first; for
`Leaf` it is an interface of the superclass that comes before its own. -/
theorem nearer_redefinition_missed :
    (after seekable).Reachable ∧
      (after seekable).method? ⟨0⟩ = some (readOf ⟨0⟩ ⟨0⟩) ∧
      ((after seekable).method? ⟨2⟩ = some (readOf ⟨2⟩ ⟨3⟩) ∧
        (after seekable).closestOverridden? ⟨2⟩ = some ⟨0⟩ ∧
        (after seekable).RedefinesBetween (readOf ⟨2⟩ ⟨3⟩) (readOf ⟨0⟩ ⟨0⟩) ⟨1⟩) ∧
      (after seekable).method? ⟨3⟩ = some (readOf ⟨3⟩ ⟨4⟩) ∧
        (after seekable).closestOverridden? ⟨3⟩ = some ⟨0⟩ ∧
        (after seekable).RedefinesBetween (readOf ⟨3⟩ ⟨4⟩) (readOf ⟨0⟩ ⟨0⟩) ⟨1⟩ := by
  have hcursor : (after seekable).directSupertypes ⟨4⟩ = [⟨0⟩, ⟨1⟩] := by cbv
  have hbelowCursor : (after seekable).DirectSupertype ⟨4⟩ ⟨1⟩ := by
    simp [DirectSupertype, hcursor]
  refine ⟨⟨seekable, rfl⟩, by cbv, ⟨by cbv, by cbv, ?_⟩, by cbv, by cbv, ?_⟩
  · exact redefinesBetween_seekable directSupertype_leaf_seekable
  · exact redefinesBetween_seekable hbelowCursor

/-- For `Leaf.read` the class that redefines the method in between is `Seekable`: no superclass, and
listed behind `Readable`, which is then listed once more. -/
theorem redefinitions_behind_closestOverridden?_seekable :
    (after seekable).method? ⟨2⟩ = some (readOf ⟨2⟩ ⟨3⟩) ∧
      (after seekable).closestOverridden? ⟨2⟩ = some ⟨0⟩ ∧
      (after seekable).RedefinesBetween (readOf ⟨2⟩ ⟨3⟩) (readOf ⟨0⟩ ⟨0⟩) ⟨1⟩ ∧
      ∃ front back,
        (after seekable).DepthFirst ((after seekable).directSupertypes ⟨3⟩)
          (front ++ ⟨0⟩ :: back) ∧
        (∀ x ∈ front, ¬ (after seekable).DeclaresInstance ⟨"read", []⟩ x) ∧
        (after seekable).ClearWay ⟨"read", []⟩ ⟨3⟩ ⟨0⟩ ∧
        ¬ (after seekable).SuperclassAbove ⟨3⟩ ⟨1⟩ ∧ ⟨1⟩ ∈ back ∧ ⟨0⟩ ∈ back := by
  have hreach : (after seekable).Reachable := ⟨seekable, rfl⟩
  have hm : (after seekable).method? ⟨2⟩ = some (readOf ⟨2⟩ ⟨3⟩) := by cbv
  have hfound : (after seekable).closestOverridden? ⟨2⟩ = some ⟨0⟩ := by cbv
  have hm' : (after seekable).method? ⟨0⟩ = some (readOf ⟨0⟩ ⟨0⟩) := by cbv
  have hbetween : (after seekable).RedefinesBetween (readOf ⟨2⟩ ⟨3⟩) (readOf ⟨0⟩ ⟨0⟩) ⟨1⟩ :=
    redefinesBetween_seekable directSupertype_leaf_seekable
  obtain ⟨decl', front, back, hdecl', horder, hfront, hway, hbehind⟩ :=
    redefinitions_behind_closestOverridden? hreach hm hfound
  obtain rfl : decl' = readOf ⟨0⟩ ⟨0⟩ := Option.some.inj (hdecl'.symm.trans hm')
  exact ⟨hm, hfound, hbetween, front, back, horder, hfront, hway, hbehind ⟨1⟩ hbetween⟩

end Hierarchy

end FieldContracts
