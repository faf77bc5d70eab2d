import FieldContracts.Proofs.Hierarchy.Coherence
import Mathlib.Data.List.Basic
import Mathlib.Data.List.Nodup

/-!
# Methods in order of declaration

`methodOrder` lists the methods class by class, each class's in the order of its members, and
`place` is the place of a method in this list.  In a coherent hierarchy the list holds every
registered method once.  `pairwise_declaredBefore` says that it keeps to the order of declaration,
and `place_lt_of_precedes` that it is therefore sorted: first by the owner, then by the identity.
-/

namespace FieldContracts

namespace Hierarchy

variable {h : Hierarchy} {c : ClassId} {m n : MethodId}

/-- The methods that the classes declare, class by class. -/
def methodOrder (h : Hierarchy) : List MethodId := h.classIds.flatMap h.declaredMethods

/-- The number of methods that are declared before this one. -/
def place (h : Hierarchy) (m : MethodId) : Nat := h.methodOrder.idxOf m

/-- The method `m` has an earlier owner than `n`, or the same owner and the smaller identity. -/
def Precedes (h : Hierarchy) (m n : MethodId) : Prop :=
  ∃ decl decl', h.method? m = some decl ∧ h.method? n = some decl' ∧
    (decl.owner.index < decl'.owner.index ∨
      decl.owner = decl'.owner ∧ m.index < n.index)

/-- The method `m` is declared by an earlier class than `n`, or by the same class further up. -/
def DeclaredBefore (h : Hierarchy) (m n : MethodId) : Prop :=
  ∃ decl decl', h.method? m = some decl ∧ h.method? n = some decl' ∧
    (decl.owner.index < decl'.owner.index ∨
      decl.owner = decl'.owner ∧ [m, n].Sublist (h.declaredMethods decl.owner))

theorem Precedes.irrefl (m : MethodId) : ¬ h.Precedes m m := by
  rintro ⟨decl, decl', hm, hm', hlt⟩
  obtain rfl : decl = decl' := Option.some.inj (hm.symm.trans hm')
  omega

theorem Precedes.asymm (hmn : h.Precedes m n) : ¬ h.Precedes n m := by
  obtain ⟨decl, decl', hm, hn, hlt⟩ := hmn
  rintro ⟨decl₂', decl₂, hn₂, hm₂, hlt₂⟩
  obtain rfl : decl = decl₂ := Option.some.inj (hm.symm.trans hm₂)
  obtain rfl : decl' = decl₂' := Option.some.inj (hn.symm.trans hn₂)
  rcases hlt with hlt | ⟨hsame, hlt⟩
  · rcases hlt₂ with hlt₂ | ⟨hsame₂, -⟩
    · omega
    · rw [hsame₂] at hlt
      omega
  · rw [hsame] at hlt₂
    omega

theorem mem_methodOrder_iff (hco : h.Coherent) : m ∈ h.methodOrder ↔ m ∈ h.methodIds := by
  rw [mem_methodIds_iff, ← exists_method?_iff]
  constructor
  · intro hm
    obtain ⟨c, -, hlisted⟩ := List.mem_flatMap.mp hm
    obtain ⟨decl, hdecl, -⟩ := hco.owned c m hlisted
    exact ⟨decl, hdecl⟩
  · rintro ⟨decl, hdecl⟩
    exact List.mem_flatMap.mpr
      ⟨decl.owner, mem_classIds.mpr (hco.owner_registered hdecl), hco.listed m decl hdecl⟩

/-- The list goes from class to class, and in each class down the list of its methods. -/
theorem pairwise_declaredBefore (hco : h.Coherent) : h.methodOrder.Pairwise h.DeclaredBefore := by
  unfold methodOrder
  rw [List.pairwise_flatMap]
  constructor
  · intro c _
    refine List.pairwise_iff_forall_sublist.mpr fun {m n} hmn => ?_
    obtain ⟨decl, hdecl, rfl⟩ := hco.owned c m (hmn.subset List.mem_cons_self)
    obtain ⟨decl', hdecl', howner⟩ :=
      hco.owned decl.owner n (hmn.subset (List.mem_cons_of_mem _ List.mem_cons_self))
    exact ⟨decl, decl', hdecl, hdecl', Or.inr ⟨howner.symm, hmn⟩⟩
  · have hclasses : h.classIds.Pairwise fun c d => c.index < d.index := by
      unfold classIds
      rw [List.pairwise_map]
      exact List.pairwise_lt_range
    refine hclasses.imp fun {c d} hlt m hm n hn => ?_
    obtain ⟨decl, hdecl, rfl⟩ := hco.owned c m hm
    obtain ⟨decl', hdecl', rfl⟩ := hco.owned d n hn
    exact ⟨decl, decl', hdecl, hdecl', Or.inl hlt⟩

/-- Within one class the identities increase down the list. -/
theorem DeclaredBefore.precedes (hco : h.Coherent) (hmn : h.DeclaredBefore m n) :
    h.Precedes m n := by
  obtain ⟨decl, decl', hm, hn, hlt | ⟨howner, hlisted⟩⟩ := hmn
  · exact ⟨decl, decl', hm, hn, Or.inl hlt⟩
  · have hindex := List.pairwise_iff_forall_sublist.mp (hco.increasing decl.owner) hlisted
    exact ⟨decl, decl', hm, hn, Or.inr ⟨howner, hindex⟩⟩

/-- The list is sorted. -/
theorem pairwise_methodOrder (hco : h.Coherent) : h.methodOrder.Pairwise h.Precedes :=
  (pairwise_declaredBefore hco).imp fun hmn => hmn.precedes hco

theorem nodup_methodOrder (hco : h.Coherent) : h.methodOrder.Nodup :=
  (pairwise_methodOrder hco).imp fun {m n} hmn heq => by
    subst heq
    exact Precedes.irrefl m hmn

theorem getElem?_place (hco : h.Coherent) (hm : m ∈ h.methodIds) :
    h.methodOrder[h.place m]? = some m :=
  List.getElem?_idxOf ((mem_methodOrder_iff hco).mpr hm)

theorem place_of_getElem? (hco : h.Coherent) {j : Nat} (hj : h.methodOrder[j]? = some m) :
    h.place m = j := by
  obtain ⟨hlt, hget⟩ := List.getElem?_eq_some_iff.mp hj
  unfold place
  rw [← hget, (nodup_methodOrder hco).idxOf_getElem]

/-- A method that precedes another one has an earlier place. -/
theorem place_lt_of_precedes (hco : h.Coherent) (hmn : h.Precedes m n) : h.place m < h.place n := by
  obtain ⟨decl, decl', hm, hn, -⟩ := id hmn
  have hplace := getElem?_place hco (mem_methodIds_iff.mpr (lt_methodCount hm))
  have hplace' := getElem?_place hco (mem_methodIds_iff.mpr (lt_methodCount hn))
  obtain ⟨hlt, hget⟩ := List.getElem?_eq_some_iff.mp hplace
  obtain ⟨hlt', hget'⟩ := List.getElem?_eq_some_iff.mp hplace'
  by_contra hnot
  -- With `n` before `m`, or both at one place, the list would not be sorted.
  rcases Nat.lt_or_eq_of_le (Nat.not_lt.mp hnot) with hless | heq
  · have hnm := List.pairwise_iff_getElem.mp (pairwise_methodOrder hco) _ _ hlt' hlt hless
    rw [hget, hget'] at hnm
    exact hmn.asymm hnm
  · rw [heq, hplace, Option.some.injEq] at hplace'
    subst hplace'
    exact Precedes.irrefl m hmn

/-- The methods that the classes before `c` declare. -/
def earlierMethods (h : Hierarchy) (c : ClassId) : List MethodId :=
  (h.classIds.take c.index).flatMap h.declaredMethods

theorem methodOrder_eq_append (hc : c.index < h.classCount) :
    ∃ later, h.methodOrder = h.earlierMethods c ++ (h.declaredMethods c ++ later) := by
  have hlength : c.index < h.classIds.length := by simpa [classIds] using hc
  have hget : h.classIds[c.index] = c := by simp [classIds]
  have hdrop : h.classIds.drop c.index = c :: h.classIds.drop (c.index + 1) := by
    rw [List.drop_eq_getElem_cons hlength, hget]
  refine ⟨(h.classIds.drop (c.index + 1)).flatMap h.declaredMethods, ?_⟩
  unfold methodOrder earlierMethods
  rw [← List.flatMap_cons, ← hdrop, ← List.flatMap_append, List.take_append_drop]

/-- The methods of one class have consecutive places, behind those of the classes before it. -/
theorem map_place_declaredMethods (hco : h.Coherent) (hc : c.index < h.classCount) :
    (h.declaredMethods c).map h.place =
      List.range' (h.earlierMethods c).length (h.declaredMethods c).length := by
  obtain ⟨later, horder⟩ := methodOrder_eq_append hc
  refine List.ext_getElem (by simp) fun j hj hj' => ?_
  have hlt : j < (h.declaredMethods c).length := by simpa using hj
  rw [List.getElem_map, List.getElem_range', Nat.one_mul]
  refine place_of_getElem? hco ?_
  rw [horder, List.getElem?_append_right (Nat.le_add_right _ _), Nat.add_sub_cancel_left,
    List.getElem?_append_left hlt, List.getElem?_eq_getElem hlt]

end Hierarchy

end FieldContracts
