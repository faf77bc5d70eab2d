import FieldContracts.Proofs.Hierarchy.MethodOrder
import FieldContracts.Proofs.Program.Layout

/-!
# The description of a reachable hierarchy

`toProgram_wellFormed` says that it is well formed, so that it builds a hierarchy again.
`registered?_hierarchy_toProgram` and `methods_hierarchy_toProgram` say what that hierarchy
registers: the same classes under the same identities, and the same methods, numbered through in
order of declaration.
-/

namespace FieldContracts

namespace Hierarchy

variable {h : Hierarchy} {c s : ClassId} {m : MethodId} {name : String}

/-! ## The description is well formed -/

theorem getElem?_classes_toProgram (h : Hierarchy) (i : Nat) :
    h.toProgram.classes[i]? = (h.registered? ⟨i⟩).map h.describeClass := by
  simp [toProgram, registered?]

theorem getElem?_classNames_toProgram (h : Hierarchy) (i : Nat) :
    h.toProgram.classNames[i]? = h.className? ⟨i⟩ := by
  rw [Program.classNames, List.getElem?_map, getElem?_classes_toProgram, className?, class?,
    Option.map_map, Option.map_map]
  rfl

theorem length_classes_toProgram (h : Hierarchy) : h.toProgram.classes.length = h.classCount := by
  simp [toProgram, classCount]

/-- Every described class is registered. -/
theorem exists_registered?_of_mem_toProgram {desc : ClassDesc}
    (hdesc : desc ∈ h.toProgram.classes) :
    ∃ c entry, h.registered? c = some entry ∧ desc = h.describeClass entry := by
  obtain ⟨i, hi⟩ := List.getElem?_of_mem hdesc
  rw [getElem?_classes_toProgram] at hi
  obtain ⟨entry, hentry, rfl⟩ := Option.map_eq_some_iff.mp hi
  exact ⟨⟨i⟩, entry, hentry, rfl⟩

/-- Every described edge is an edge of the hierarchy. -/
theorem directSupertype_of_below {a b : String} (hbelow : h.toProgram.Below a b) :
    ∃ c s, h.className? c = some a ∧ h.className? s = some b ∧ h.DirectSupertype c s := by
  obtain ⟨desc, hdesc, rfl, hb⟩ := hbelow
  obtain ⟨c, entry, hentry, rfl⟩ := exists_registered?_of_mem_toProgram hdesc
  have hname : h.className? c = some entry.decl.name := by
    rw [className?, class?_of_registered? hentry, Option.map_some]
  rcases List.mem_append.mp hb with hsuper | hinterface
  · obtain ⟨s, hs, hsname⟩ := Option.bind_eq_some_iff.mp (Option.mem_toList.mp hsuper)
    refine ⟨c, s, hname, hsname, mem_directSupertypes_iff.mpr (Or.inl ?_)⟩
    rw [superclass?, hentry]
    exact hs
  · obtain ⟨s, hs, hsname⟩ := List.mem_filterMap.mp hinterface
    refine ⟨c, s, hname, hsname, mem_directSupertypes_iff.mpr (Or.inr ?_)⟩
    rw [interfaces, hentry]
    exact hs

/-- A described way upward is one of the hierarchy. -/
theorem strictSupertype_of_transGen_below (hco : h.Coherent) {a b : String}
    (hway : Relation.TransGen h.toProgram.Below a b) :
    ∃ c s, h.className? c = some a ∧ h.className? s = some b ∧ h.StrictSupertype c s := by
  induction hway with
  | single hlast =>
      obtain ⟨c, s, hc, hs, hdirect⟩ := directSupertype_of_below hlast
      exact ⟨c, s, hc, hs, .single hdirect⟩
  | tail _ hlast ih =>
      obtain ⟨c, s, hc, hs, habove⟩ := ih
      obtain ⟨s', t, hs', ht, hdirect⟩ := directSupertype_of_below hlast
      obtain rfl : s = s' := hco.name_unique s s' _ hs hs'
      exact ⟨c, t, hc, ht, .tail habove hdirect⟩

theorem toProgram_wellFormed (hwf : h.WellFormed) (hco : h.Coherent) :
    h.toProgram.WellFormed where
  names_nodup := by
    rw [List.nodup_iff_getElem?_ne_getElem?]
    intro i j hij hj heq
    obtain ⟨name, hname⟩ : ∃ name, h.toProgram.classNames[j]? = some name :=
      ⟨_, List.getElem?_eq_getElem hj⟩
    rw [hname, getElem?_classNames_toProgram] at heq
    rw [getElem?_classNames_toProgram] at hname
    have hsame := hco.name_unique ⟨i⟩ ⟨j⟩ name heq hname
    rw [ClassId.mk.injEq] at hsame
    omega
  known := by
    intro a b hbelow
    obtain ⟨c, s, -, hs, -⟩ := directSupertype_of_below hbelow
    refine List.mem_of_getElem? (i := s.index) ?_
    rw [getElem?_classNames_toProgram]
    exact hs
  fields_nodup := by
    intro desc hdesc
    obtain ⟨c, entry, hentry, rfl⟩ := exists_registered?_of_mem_toProgram hdesc
    exact hco.field_unique c entry.decl (class?_of_registered? hentry)
  acyclic := by
    intro a hcycle
    -- A cycle of names is a cycle of classes, because no two classes share a name.
    obtain ⟨c, s, hc, hs, habove⟩ := strictSupertype_of_transGen_below hco hcycle
    obtain rfl : c = s := hco.name_unique c s a hc hs
    exact hwf.irreflexive c habove

/-! ## The methods that it lays out -/

/-- The class that declares a method, with what it says of the method. -/
def ownedMethod (h : Hierarchy) (m : MethodId) : ClassId × MethodSpec :=
  let decl := (h.method? m).getD default
  (decl.owner, decl.toMethodSpec)

theorem ownedMethod_eq {decl : MethodDecl} (hm : h.method? m = some decl) :
    h.ownedMethod m = (decl.owner, decl.toMethodSpec) := by
  simp [ownedMethod, hm]

theorem describeMethods_eq_map {ms : List MethodId}
    (hms : ∀ m ∈ ms, ∃ decl, h.method? m = some decl) :
    h.describeMethods ms = ms.map fun m => ⟨(h.ownedMethod m).2, none⟩ := by
  unfold describeMethods
  rw [List.filterMap_eq_map_iff_forall_eq_some]
  intro m hm
  obtain ⟨decl, hdecl⟩ := hms m hm
  rw [hdecl, ownedMethod_eq hdecl]
  rfl

/-- A class is described with the methods that it declares. -/
theorem methods_describeClass (hco : h.Coherent) {entry : ClassEntry}
    (hentry : h.registered? c = some entry) :
    (h.describeClass entry).methods =
      (h.declaredMethods c).map fun m => ⟨(h.ownedMethod m).2, none⟩ := by
  have hmethods : h.declaredMethods c = entry.decl.methodIds := by
    rw [declaredMethods, class?_of_registered? hentry]
    rfl
  have hregistered : ∀ m ∈ entry.decl.methodIds, ∃ decl, h.method? m = some decl := by
    intro m hm
    obtain ⟨decl, hdecl, -⟩ := hco.owned c m (hmethods ▸ hm)
    exact ⟨decl, hdecl⟩
  rw [hmethods]
  exact describeMethods_eq_map hregistered

/-- The description lists the methods in order of declaration, each in the class of its owner. -/
theorem ownedMethods_take_toProgram (hco : h.Coherent) (i : Nat) :
    Program.ownedMethods (h.toProgram.classes.take i) =
      ((h.classIds.take i).flatMap h.declaredMethods).map h.ownedMethod := by
  unfold Program.ownedMethods
  rw [List.map_flatMap, List.flatMap_def]
  -- Both sides list the methods class by class, so it is enough to compare one class.
  congr 1
  ext1 j
  rw [List.getElem?_mapIdx, List.getElem?_map, List.getElem?_take, List.getElem?_take]
  by_cases hj : j < i
  · rw [if_pos hj, if_pos hj, getElem?_classes_toProgram]
    cases hentry : h.registered? ⟨j⟩ with
    | none =>
        have hout : h.classCount ≤ j := registered?_eq_none_iff.mp hentry
        simp [classIds, hout]
    | some entry =>
        have hin : j < h.classCount := lt_classCount_of_registered? hentry
        have hget : h.classIds[j]? = some ⟨j⟩ := by simp [classIds, hin]
        rw [hget, Option.map_some, Option.map_some, Option.map_some,
          methods_describeClass hco hentry, List.map_map]
        congr 1
        refine List.map_congr_left fun m hm => ?_
        obtain ⟨decl, hdecl, howner⟩ := hco.owned ⟨j⟩ m hm
        rw [Function.comp_apply, ownedMethod_eq hdecl, howner]
  · rw [if_neg hj, if_neg hj]
    rfl

theorem ownedMethods_toProgram (hco : h.Coherent) :
    Program.ownedMethods h.toProgram.classes = h.methodOrder.map h.ownedMethod := by
  have htake := ownedMethods_take_toProgram hco h.classCount
  have hclasses : h.toProgram.classes.take h.classCount = h.toProgram.classes :=
    List.take_of_length_le (Nat.le_of_eq (length_classes_toProgram h))
  have hids : h.classIds.take h.classCount = h.classIds :=
    List.take_of_length_le (by simp [classIds])
  rw [hclasses, hids] at htake
  exact htake

theorem methods_hierarchy_toProgram (hco : h.Coherent) :
    h.toProgram.hierarchy.methods.toList = h.methodOrder.mapIdx fun j m =>
      MethodDecl.mk (h.ownedMethod m).2 ⟨j⟩ (h.ownedMethod m).1 := by
  show List.mapIdx _ (Program.ownedMethods (h.toProgram.classes.take _)) = _
  rw [List.take_length, ownedMethods_toProgram hco]
  ext1 j
  simp [Function.comp_def]

theorem methodCount_hierarchy_toProgram (hco : h.Coherent) :
    h.toProgram.hierarchy.methodCount = h.methodOrder.length := by
  rw [methodCount, ← Array.length_toList, methods_hierarchy_toProgram hco, List.length_mapIdx]

/-- A method keeps what is declared of it and takes its place as new identity. -/
theorem method?_hierarchy_toProgram (hco : h.Coherent) {decl : MethodDecl}
    (hm : h.method? m = some decl) :
    h.toProgram.hierarchy.method? ⟨h.place m⟩ = some { decl with id := ⟨h.place m⟩ } := by
  have hplace : h.methodOrder[h.place m]? = some m :=
    getElem?_place hco (mem_methodIds_iff.mpr (lt_methodCount hm))
  rw [method?, ← Array.getElem?_toList, methods_hierarchy_toProgram hco, List.getElem?_mapIdx,
    hplace, Option.map_some, ownedMethod_eq hm]

/-! ## The classes that it lays out -/

/-- A class keeps its identity. -/
theorem classId_toProgram (hwf : h.WellFormed) (hco : h.Coherent)
    (hname : h.className? c = some name) : h.toProgram.classId name = c := by
  obtain ⟨decl, hclass, rfl⟩ := Option.map_eq_some_iff.mp hname
  obtain ⟨entry, hentry, rfl⟩ := Option.map_eq_some_iff.mp hclass
  have hdesc : h.toProgram.classes[c.index]? = some (h.describeClass entry) := by
    rw [getElem?_classes_toProgram, hentry, Option.map_some]
  exact (toProgram_wellFormed hwf hco).classId_of_getElem? hdesc

/-- The class with its fields in front of its methods, and these under new identities. -/
def layOut (h : Hierarchy) (decl : ClassDecl) : ClassDecl :=
  { decl with members := decl.fields.map .field ++
      decl.methodIds.map fun m => .method ⟨h.place m⟩ }

/-- The supertypes that a class has are found again under their names. -/
theorem classId_className? (hwf : h.WellFormed) (hco : h.Coherent)
    (hdirect : h.DirectSupertype c s) : (h.className? s).map h.toProgram.classId = some s := by
  obtain ⟨name, hname⟩ := exists_className?_iff.mpr (hwf.registered c s hdirect)
  rw [hname, Option.map_some, classId_toProgram hwf hco hname]

/-- The methods of a class are numbered as the description counts them. -/
theorem methodIds_toProgram (hco : h.Coherent) {entry : ClassEntry}
    (hentry : h.registered? c = some entry) :
    List.range' (h.toProgram.methodsBefore c.index) (h.describeClass entry).methods.length =
      entry.decl.methodIds.map h.place := by
  have hmethods : h.declaredMethods c = entry.decl.methodIds := by
    rw [declaredMethods, class?_of_registered? hentry]
    rfl
  have hbefore : h.toProgram.methodsBefore c.index = (h.earlierMethods c).length := by
    rw [Program.methodsBefore, ownedMethods_take_toProgram hco, List.length_map, earlierMethods]
  have hlength : (h.describeClass entry).methods.length = (h.declaredMethods c).length := by
    rw [methods_describeClass hco hentry, List.length_map]
  rw [hbefore, hlength, ← hmethods,
    map_place_declaredMethods hco (lt_classCount_of_registered? hentry)]

theorem entry_toProgram (hwf : h.WellFormed) (hco : h.Coherent) {entry : ClassEntry}
    (hentry : h.registered? c = some entry) :
    h.toProgram.entry c.index (h.describeClass entry) =
      { entry with decl := h.layOut entry.decl } := by
  have hid : entry.decl.id = c := hco.class_id c entry.decl (class?_of_registered? hentry)
  have hsuper : (entry.superclass.bind h.className?).map h.toProgram.classId =
      entry.superclass := by
    cases hs : entry.superclass with
    | none => rfl
    | some s =>
        refine classId_className? (c := c) hwf hco (mem_directSupertypes_iff.mpr (Or.inl ?_))
        rw [superclass?, hentry]
        exact hs
  have hinterfaces : (h.classNames entry.interfaces).map h.toProgram.classId =
      entry.interfaces := by
    have hfound : ∀ s ∈ entry.interfaces,
        (h.className? s).map h.toProgram.classId = some (id s) := by
      intro s hs
      refine classId_className? (c := c) hwf hco (mem_directSupertypes_iff.mpr (Or.inr ?_))
      rw [interfaces, hentry]
      exact hs
    unfold classNames
    rw [List.map_filterMap, List.filterMap_eq_map_iff_forall_eq_some.mpr hfound, List.map_id]
  have hmembers : ((List.range' (h.toProgram.methodsBefore c.index)
      (h.describeClass entry).methods.length).map fun j => Member.method ⟨j⟩) =
      entry.decl.methodIds.map fun m => .method ⟨h.place m⟩ := by
    rw [methodIds_toProgram hco hentry, List.map_map]
    rfl
  unfold Program.entry
  rw [hmembers]
  show ClassEntry.mk ⟨c, entry.decl.name, _⟩ ((entry.superclass.bind h.className?).map _)
    ((h.classNames entry.interfaces).map _) = _
  rw [hsuper, hinterfaces, ← hid]
  rfl

theorem registered?_hierarchy_toProgram (hwf : h.WellFormed) (hco : h.Coherent) (c : ClassId) :
    h.toProgram.hierarchy.registered? c =
      (h.registered? c).map fun entry => { entry with decl := h.layOut entry.decl } := by
  show (h.toProgram.filled h.toProgram.classes.length).registered? c = _
  rw [Program.registered?_filled, getElem?_classes_toProgram, Option.map_map,
    length_classes_toProgram]
  cases hentry : h.registered? c with
  | none => rfl
  | some entry =>
      have hc : c.index < h.classCount := lt_classCount_of_registered? hentry
      rw [Option.map_some, Option.map_some, Function.comp_apply, if_pos hc,
        entry_toProgram hwf hco hentry]

end Hierarchy

end FieldContracts
