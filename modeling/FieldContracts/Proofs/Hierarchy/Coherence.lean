import FieldContracts.Proofs.Hierarchy.Steps

/-!
# Identities, names and members fit together

`Coherent` says that an identity leads to what is registered under it, that a name belongs to one
class, and that the methods which the classes list are exactly the registered ones, each listed by
its owner.  `Reachable.coherent` says that every reachable hierarchy is coherent.
-/

namespace FieldContracts

namespace Hierarchy

variable {h h' : Hierarchy} {c d : ClassId} {m : MethodId} {name : String}

/-! ## Declared methods and names after a step -/

@[simp]
theorem declaredMethods_withClass (name : String) :
    (h.withClass name).declaredMethods d = h.declaredMethods d := by
  rw [declaredMethods, declaredMethods, class?_withClass]
  by_cases hnext : d = h.nextClassId
  · have hnone : h.class? d = none := class?_eq_none_iff.mpr (hnext ▸ Nat.le_refl _)
    rw [if_pos hnext, hnone]
    rfl
  · rw [if_neg hnext]

theorem className?_withClass :
    (h.withClass name).className? d = if d = h.nextClassId then some name else h.className? d := by
  rw [className?, class?_withClass]
  by_cases hnext : d = h.nextClassId
  · rw [if_pos hnext, if_pos hnext]
    rfl
  · rw [if_neg hnext, if_neg hnext]
    rfl

@[simp]
theorem className?_appendMember (member : Member) :
    (h.appendMember c member).className? d = h.className? d := by
  rw [className?, className?, class?_appendMember]
  by_cases hcd : c = d
  · rw [if_pos hcd, Option.map_map]
    rfl
  · rw [if_neg hcd]

@[simp]
theorem className?_withMethod (spec : MethodSpec) :
    (h.withMethod c spec).className? d = h.className? d :=
  className?_appendMember (.method h.nextMethodId)

@[simp]
theorem declaredMethods_appendField (field : FieldDecl) :
    (h.appendMember c (.field field)).declaredMethods d = h.declaredMethods d := by
  rw [declaredMethods, declaredMethods, class?_appendMember]
  by_cases hcd : c = d
  · rw [if_pos hcd, Option.map_map]
    cases h.class? d with
    | none => rfl
    | some decl => simp [ClassDecl.methodIds, Member.methodId?]
  · rw [if_neg hcd]

theorem declaredMethods_withMethod (hc : c.index < h.classCount) (spec : MethodSpec) :
    (h.withMethod c spec).declaredMethods d =
      if c = d then h.declaredMethods d ++ [h.nextMethodId] else h.declaredMethods d := by
  rw [declaredMethods, declaredMethods, class?_withMethod]
  by_cases hcd : c = d
  · rw [if_pos hcd, if_pos hcd, Option.map_map]
    cases hdecl : h.class? d with
    | none =>
        have hout : h.classCount ≤ d.index := class?_eq_none_iff.mp hdecl
        rw [hcd] at hc
        omega
    | some decl => simp [ClassDecl.methodIds, Member.methodId?]
  · rw [if_neg hcd, if_neg hcd]

/-- No class has a name by which none is found. -/
theorem className?_ne_of_classId?_eq_none (hfree : h.classId? name = none) :
    h.className? d ≠ some name := by
  intro hname
  have hd : d ∈ h.classIds := mem_classIds.mpr (exists_className?_iff.mp ⟨name, hname⟩)
  have hmiss := List.find?_eq_none.mp hfree d hd
  simp [hname] at hmiss

/-- If names are not shared, the search by name finds exactly the class of the name. -/
theorem classId?_eq_some_iff
    (hunique : ∀ c d name, h.className? c = some name → h.className? d = some name → c = d) :
    h.classId? name = some c ↔ h.className? c = some name := by
  have hnamed : ∀ d, h.classId? name = some d → h.className? d = some name := by
    intro d hfound
    simpa using List.find?_some hfound
  constructor
  · exact hnamed c
  · intro hname
    cases hfound : h.classId? name with
    | none => exact absurd hname (className?_ne_of_classId?_eq_none hfound)
    | some d => rw [hunique c d name hname (hnamed d hfound)]

theorem method?_eq_none_iff : h.method? m = none ↔ h.methodCount ≤ m.index := by
  simp [method?, methodCount]

theorem lt_methodCount {decl : MethodDecl} (hm : h.method? m = some decl) :
    m.index < h.methodCount := by
  rw [← Nat.not_le, ← method?_eq_none_iff, hm]
  simp

theorem mem_methodIds_iff : m ∈ h.methodIds ↔ m.index < h.methodCount := by
  constructor
  · intro hm
    obtain ⟨j, hj, rfl⟩ := List.mem_map.mp hm
    exact List.mem_range.mp hj
  · exact fun hm => List.mem_map.mpr ⟨m.index, List.mem_range.mpr hm, rfl⟩

theorem exists_method?_iff : (∃ decl, h.method? m = some decl) ↔ m.index < h.methodCount := by
  rw [← Option.isSome_iff_exists, Option.isSome_iff_ne_none, ne_eq, method?_eq_none_iff,
    Nat.not_le]

/-! ## Coherence -/

/-- Identities, names and member lists agree with each other. -/
structure Coherent (h : Hierarchy) : Prop where
  class_id : ∀ c decl, h.class? c = some decl → decl.id = c
  name_unique : ∀ c d name, h.className? c = some name → h.className? d = some name → c = d
  field_unique : ∀ c decl, h.class? c = some decl → (decl.fields.map (·.name)).Nodup
  method_id : ∀ m decl, h.method? m = some decl → decl.id = m
  listed : ∀ m decl, h.method? m = some decl → m ∈ h.declaredMethods decl.owner
  owned : ∀ c m, m ∈ h.declaredMethods c → ∃ decl, h.method? m = some decl ∧ decl.owner = c
  increasing : ∀ c, (h.declaredMethods c).Pairwise fun m n => m.index < n.index

namespace Coherent

theorem empty : Hierarchy.empty.Coherent where
  class_id := by simp [Hierarchy.empty, class?, registered?]
  name_unique := by simp [Hierarchy.empty, className?, class?, registered?]
  field_unique := by simp [Hierarchy.empty, class?, registered?]
  method_id := by simp [Hierarchy.empty, method?]
  listed := by simp [Hierarchy.empty, method?]
  owned := by simp [Hierarchy.empty, declaredMethods, class?, registered?]
  increasing := by simp [Hierarchy.empty, declaredMethods, class?, registered?]

/-- Coherence does not depend on the supertypes. -/
theorem congr (hco : h.Coherent) (hclass : ∀ c, h'.class? c = h.class? c)
    (hmethod : ∀ m, h'.method? m = h.method? m) : h'.Coherent := by
  have hname : ∀ c, h'.className? c = h.className? c := fun c => by
    rw [className?, hclass, ← className?]
  have hmethods : ∀ c, h'.declaredMethods c = h.declaredMethods c := fun c => by
    rw [declaredMethods, hclass, ← declaredMethods]
  constructor
  · simpa only [hclass] using hco.class_id
  · simpa only [hname] using hco.name_unique
  · simpa only [hclass] using hco.field_unique
  · simpa only [hmethod] using hco.method_id
  · simpa only [hmethod, hmethods] using hco.listed
  · simpa only [hmethod, hmethods] using hco.owned
  · simpa only [hmethods] using hco.increasing

theorem withClass (hco : h.Coherent) (hfree : h.classId? name = none) :
    (h.withClass name).Coherent where
  class_id := by
    intro c decl hdecl
    rw [class?_withClass] at hdecl
    split at hdecl
    · next hnext =>
        rw [← Option.some.inj hdecl]
        exact hnext.symm
    · exact hco.class_id c decl hdecl
  name_unique := by
    intro c d found hc hd
    rw [className?_withClass] at hc hd
    split at hc
    · next hcnext =>
        split at hd
        · next hdnext => exact hcnext.trans hdnext.symm
        · exact absurd ((Option.some.inj hc).symm ▸ hd) (className?_ne_of_classId?_eq_none hfree)
    · split at hd
      · exact absurd ((Option.some.inj hd).symm ▸ hc) (className?_ne_of_classId?_eq_none hfree)
      · exact hco.name_unique c d found hc hd
  field_unique := by
    intro c decl hdecl
    rw [class?_withClass] at hdecl
    split at hdecl
    · rw [← Option.some.inj hdecl]
      exact List.nodup_nil
    · exact hco.field_unique c decl hdecl
  method_id := hco.method_id
  listed := by simpa using hco.listed
  owned := by simpa using hco.owned
  increasing := by simpa using hco.increasing

theorem class_id_appendMember (hco : h.Coherent) (member : Member) (d : ClassId)
    (found : ClassDecl) (hfound : (h.appendMember c member).class? d = some found) :
    found.id = d := by
  rw [class?_appendMember] at hfound
  split at hfound
  · obtain ⟨old, hold, rfl⟩ := Option.map_eq_some_iff.mp hfound
    exact hco.class_id d old hold
  · exact hco.class_id d found hfound

theorem appendField (hco : h.Coherent) {decl : ClassDecl} {field : FieldDecl}
    (hdecl : h.class? c = some decl) (hfree : decl.field? field.name = none) :
    (h.appendMember c (.field field)).Coherent where
  class_id := hco.class_id_appendMember (.field field)
  name_unique := by simpa using hco.name_unique
  field_unique := by
    intro d found hfound
    rw [class?_appendMember] at hfound
    split at hfound
    · next hcd =>
        subst hcd
        rw [hdecl, Option.map_some, Option.some.injEq] at hfound
        rw [← hfound, ClassDecl.fields_append_field]
        exact ClassDecl.nodup_fields_append (hco.field_unique c decl hdecl) hfree
    · exact hco.field_unique d found hfound
  method_id := hco.method_id
  listed := by
    intro m found hfound
    rw [declaredMethods_appendField]
    exact hco.listed m found hfound
  owned := by
    intro d m hm
    rw [declaredMethods_appendField] at hm
    exact hco.owned d m hm
  increasing := by simpa using hco.increasing

theorem withMethod (hco : h.Coherent) (hc : c.index < h.classCount) (spec : MethodSpec) :
    (h.withMethod c spec).Coherent where
  class_id := hco.class_id_appendMember (.method h.nextMethodId)
  name_unique := by simpa using hco.name_unique
  field_unique := by
    intro d found hfound
    rw [class?_withMethod] at hfound
    split at hfound
    · obtain ⟨old, hold, rfl⟩ := Option.map_eq_some_iff.mp hfound
      rw [ClassDecl.fields_append_method]
      exact hco.field_unique d old hold
    · exact hco.field_unique d found hfound
  method_id := by
    intro m found hfound
    rw [method?_withMethod] at hfound
    split at hfound
    · next hnext =>
        rw [← Option.some.inj hfound]
        exact hnext.symm
    · exact hco.method_id m found hfound
  listed := by
    intro m found hfound
    rw [method?_withMethod] at hfound
    rw [declaredMethods_withMethod hc]
    split at hfound
    · next hnext =>
        rw [← Option.some.inj hfound, if_pos rfl, hnext]
        exact List.mem_append_right _ List.mem_cons_self
    · have hold := hco.listed m found hfound
      split
      · exact List.mem_append_left _ hold
      · exact hold
  owned := by
    intro d m hm
    -- The new identity is past all registered ones, so look-ups of these do not meet it.
    have hsame : m ∈ h.declaredMethods d → ∃ decl,
        (h.withMethod c spec).method? m = some decl ∧ decl.owner = d := by
      intro hold
      obtain ⟨decl, hdecl, howner⟩ := hco.owned d m hold
      have hne : m ≠ h.nextMethodId := fun heq => by
        have hlt : m.index < h.methodCount := lt_methodCount hdecl
        rw [heq] at hlt
        exact Nat.lt_irrefl _ hlt
      exact ⟨decl, by rw [method?_withMethod, if_neg hne, hdecl], howner⟩
    rw [declaredMethods_withMethod hc] at hm
    split at hm
    · next hcd =>
        rcases List.mem_append.mp hm with hold | hnew
        · exact hsame hold
        · rw [List.mem_singleton] at hnew
          exact ⟨_, by rw [method?_withMethod, if_pos hnew], hcd⟩
    · exact hsame hm
  increasing := by
    intro d
    rw [declaredMethods_withMethod hc]
    split
    · refine List.pairwise_append.mpr ⟨hco.increasing d, by simp, fun m hm n hn => ?_⟩
      obtain ⟨decl, hdecl, -⟩ := hco.owned d m hm
      rw [List.mem_singleton.mp hn]
      exact lt_methodCount hdecl
    · exact hco.increasing d

/-- An accepted step keeps the hierarchy coherent. -/
theorem apply (hco : h.Coherent) {op : Operation} (happly : op.apply h = .ok h') :
    h'.Coherent := by
  cases op with
  | addClass name =>
      obtain ⟨hfree, rfl⟩ := addClass_eq_ok_iff.mp happly
      exact hco.withClass hfree
  | setSuperclass c s =>
      obtain ⟨-, rfl⟩ := setSuperclass_eq_ok_iff.mp happly
      exact hco.congr (fun _ => class?_withSuperclass) fun _ => rfl
  | addInterface c i =>
      obtain ⟨-, rfl⟩ := addInterface_eq_ok_iff.mp happly
      exact hco.congr (fun _ => class?_withInterface) fun _ => rfl
  | addField c field =>
      obtain ⟨⟨decl, hdecl, hfree⟩, rfl⟩ := addField_eq_ok_iff.mp happly
      exact hco.appendField hdecl hfree
  | addMethod c spec =>
      obtain ⟨hc, rfl⟩ := addMethod_eq_ok_iff.mp happly
      exact hco.withMethod hc spec

/-- The class that declares a method is registered. -/
theorem owner_registered (hco : h.Coherent) {decl : MethodDecl} (hm : h.method? m = some decl) :
    decl.owner.index < h.classCount := by
  obtain ⟨classDecl, hclass, -⟩ := mem_declaredMethods_iff.mp (hco.listed m decl hm)
  exact Nat.not_le.mp fun hout => by simp [class?_eq_none_iff.mpr hout] at hclass

end Coherent

theorem Reachable.coherent (hreach : h.Reachable) : h.Coherent :=
  hreach.induction Coherent.empty fun _ _ _ _ hco happly => hco.apply happly

end Hierarchy

end FieldContracts
