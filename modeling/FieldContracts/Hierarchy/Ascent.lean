import FieldContracts.Hierarchy.Supertypes

/-!
# What the walk upward meets

`mem_above_iff` says that the walk lists exactly the classes above its start, in whatever order the
edges were added, as long as every supertype is registered.  `nodup_preorder` says that it lists
none of them twice.
-/

namespace FieldContracts

namespace Hierarchy

variable {h : Hierarchy}

theorem preorder_nil (seen : List ClassId) : h.preorder [] seen = [] := by
  rw [preorder]

theorem preorder_cons_of_new {c : ClassId} {rest seen : List ClassId}
    (hc : c.index < h.classCount) (hseen : c ∉ seen) :
    h.preorder (c :: rest) seen =
      c :: h.preorder (h.directSupertypes c ++ rest) (c :: seen) := by
  rw [preorder]
  simp [hc, hseen]

theorem preorder_cons_of_old {c : ClassId} {rest seen : List ClassId}
    (hold : ¬ (c.index < h.classCount ∧ c ∉ seen)) :
    h.preorder (c :: rest) seen = h.preorder rest seen := by
  rw [preorder, dif_neg hold]

/-- The walk lists registered classes that were not seen before. -/
theorem new_of_mem_preorder {pending seen : List ClassId} {x : ClassId}
    (hx : x ∈ h.preorder pending seen) : x.index < h.classCount ∧ x ∉ seen := by
  fun_induction h.preorder pending seen with
  | case1 => simp at hx
  | case2 seen c rest hnew ih =>
    rcases List.mem_cons.mp hx with rfl | hx
    · exact hnew
    · exact ⟨(ih hx).1, fun hmem => (ih hx).2 (List.mem_cons_of_mem _ hmem)⟩
  | case3 seen c rest hold ih => exact ih hx

/-- The walk lists no class twice. -/
theorem nodup_preorder (pending seen : List ClassId) : (h.preorder pending seen).Nodup := by
  fun_induction h.preorder pending seen with
  | case1 => exact List.nodup_nil
  | case2 seen c rest hnew ih =>
    refine List.nodup_cons.mpr ⟨fun hmem => ?_, ih⟩
    exact (new_of_mem_preorder hmem).2 List.mem_cons_self
  | case3 seen c rest hold ih => exact ih

/-- A class that the walk lists is one of those it starts from, or lies above one. -/
theorem reached_of_mem_preorder {pending seen : List ClassId} {x : ClassId}
    (hx : x ∈ h.preorder pending seen) :
    ∃ c ∈ pending, x = c ∨ h.StrictSupertype c x := by
  fun_induction h.preorder pending seen with
  | case1 => simp at hx
  | case2 seen c rest hnew ih =>
    rcases List.mem_cons.mp hx with rfl | hx
    · exact ⟨x, List.mem_cons_self, Or.inl rfl⟩
    · obtain ⟨d, hd, hreach⟩ := ih hx
      rcases List.mem_append.mp hd with hd | hd
      · refine ⟨c, List.mem_cons_self, Or.inr ?_⟩
        rcases hreach with rfl | hreach
        · exact .single hd
        · exact .trans (.single hd) hreach
      · exact ⟨d, List.mem_cons_of_mem _ hd, hreach⟩
  | case3 seen c rest hold ih =>
    obtain ⟨d, hd, hreach⟩ := ih hx
    exact ⟨d, List.mem_cons_of_mem _ hd, hreach⟩

/-- Every registered class that the walk starts from has been seen or is listed, and so has every
registered class right above one of these, if the walk starts from all classes right above those
seen. -/
theorem closed_preorder {pending seen : List ClassId}
    (hseen : ∀ y ∈ seen, ∀ z, h.DirectSupertype y z → z.index < h.classCount →
      z ∈ seen ∨ z ∈ pending) :
    (∀ c ∈ pending, c.index < h.classCount → c ∈ seen ∨ c ∈ h.preorder pending seen) ∧
      ∀ y, y ∈ seen ∨ y ∈ h.preorder pending seen → ∀ z, h.DirectSupertype y z →
        z.index < h.classCount → z ∈ seen ∨ z ∈ h.preorder pending seen := by
  fun_induction h.preorder pending seen with
  | case1 seen =>
    refine ⟨by simp, fun y hy z hz hzc => ?_⟩
    simpa using hseen y (by simpa using hy) z hz hzc
  | case2 seen c rest hnew ih =>
    have hstep : ∀ y ∈ c :: seen, ∀ z, h.DirectSupertype y z → z.index < h.classCount →
        z ∈ c :: seen ∨ z ∈ h.directSupertypes c ++ rest := by
      intro y hy z hz hzc
      rcases List.mem_cons.mp hy with rfl | hy
      · exact Or.inr (List.mem_append_left _ hz)
      · rcases hseen y hy z hz hzc with hz | hz
        · exact Or.inl (List.mem_cons_of_mem _ hz)
        · rcases List.mem_cons.mp hz with rfl | hz
          · exact Or.inl List.mem_cons_self
          · exact Or.inr (List.mem_append_right _ hz)
    obtain ⟨hstart, hclosed⟩ := ih hstep
    have hmove : ∀ x,
        (x ∈ c :: seen ∨ x ∈ h.preorder (h.directSupertypes c ++ rest) (c :: seen)) ↔
          (x ∈ seen ∨ x ∈ c :: h.preorder (h.directSupertypes c ++ rest) (c :: seen)) := by
      intro x
      simp only [List.mem_cons, or_assoc, or_left_comm]
    refine ⟨fun d hd hdc => ?_, fun y hy z hz hzc => ?_⟩
    · rcases List.mem_cons.mp hd with rfl | hd
      · exact Or.inr List.mem_cons_self
      · exact (hmove d).mp (hstart d (List.mem_append_right _ hd) hdc)
    · exact (hmove z).mp (hclosed y ((hmove y).mpr hy) z hz hzc)
  | case3 seen c rest hold ih =>
    have hknown : c.index < h.classCount → c ∈ seen := fun hc =>
      Decidable.byContradiction fun hnot => hold ⟨hc, hnot⟩
    have hstep : ∀ y ∈ seen, ∀ z, h.DirectSupertype y z → z.index < h.classCount →
        z ∈ seen ∨ z ∈ rest := by
      intro y hy z hz hzc
      rcases hseen y hy z hz hzc with hz | hz
      · exact Or.inl hz
      · rcases List.mem_cons.mp hz with rfl | hz
        · exact Or.inl (hknown hzc)
        · exact Or.inr hz
    obtain ⟨hstart, hclosed⟩ := ih hstep
    refine ⟨fun d hd hdc => ?_, hclosed⟩
    rcases List.mem_cons.mp hd with rfl | hd
    · exact Or.inl (hknown hdc)
    · exact hstart d hd hdc

/-- Every class that occurs above another one is registered. -/
def SupertypesRegistered (h : Hierarchy) : Prop :=
  ∀ c s, h.DirectSupertype c s → s.index < h.classCount

/-- The walk from `c` lists exactly the classes above `c`. -/
theorem mem_above_iff (hreg : h.SupertypesRegistered) {c x : ClassId} :
    x ∈ h.above c ↔ h.StrictSupertype c x := by
  have hclosed := @closed_preorder h (h.directSupertypes c) [] (by simp)
  constructor
  · intro hx
    obtain ⟨d, hd, rfl | hreach⟩ := reached_of_mem_preorder hx
    · exact .single hd
    · exact .trans (.single hd) hreach
  · intro hx
    induction hx with
    | single hd => exact (hclosed.1 _ hd (hreg _ _ hd)).resolve_left List.not_mem_nil
    | tail _ hlast ih =>
      exact (hclosed.2 _ (Or.inr ih) _ hlast (hreg _ _ hlast)).resolve_left List.not_mem_nil

/-- The walk that starts at a registered class `c` lists `c` and exactly the classes above it. -/
theorem mem_upward_iff (hreg : h.SupertypesRegistered) {c x : ClassId}
    (hc : c.index < h.classCount) :
    x ∈ h.upward c ↔ x = c ∨ h.StrictSupertype c x := by
  have hclosed := @closed_preorder h [c] [] (by simp)
  constructor
  · intro hx
    obtain ⟨d, hd, hreach⟩ := reached_of_mem_preorder hx
    obtain rfl := List.mem_singleton.mp hd
    exact hreach
  · intro hx
    have hself : c ∈ h.upward c :=
      (hclosed.1 c List.mem_cons_self hc).resolve_left List.not_mem_nil
    rcases hx with rfl | hx
    · exact hself
    · induction hx with
      | single hd =>
        exact (hclosed.2 _ (Or.inr hself) _ hd (hreg _ _ hd)).resolve_left List.not_mem_nil
      | tail _ hlast ih =>
        exact (hclosed.2 _ (Or.inr ih) _ hlast (hreg _ _ hlast)).resolve_left List.not_mem_nil

end Hierarchy

end FieldContracts
