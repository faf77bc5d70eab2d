import FieldContracts.Proofs.Hierarchy.Members
import FieldContracts.Proofs.Program.WellFormed
import Mathlib.Data.List.Induction

/-!
# The hierarchy that a description lays out

`Program.hierarchy` gives the hierarchy of a well-formed description without building it: a class
takes its place in the description as identity, its fields come before its methods, and methods are
numbered through from the first class to the last.  `ofProgram_eq_ok` says that building arrives
there.  The loop over the classes is followed by `Program.filled k`, in which the first `k` classes
are filled in and the others still empty; `fillClass_filled` is its turn.
-/

namespace FieldContracts

namespace Program

open Hierarchy

variable {p : Program} {h : Hierarchy} {desc : ClassDesc} {k : Nat}

/-! ## The result of building -/

/-- The described methods in order, each with the identity of its class. -/
def ownedMethods (classes : List ClassDesc) : List (ClassId × MethodSpec) :=
  (classes.mapIdx fun i desc =>
    desc.methods.map fun method => (ClassId.mk i, method.toMethodSpec)).flatten

/-- The number of methods that the first `k` classes declare. -/
def methodsBefore (p : Program) (k : Nat) : Nat := (ownedMethods (p.classes.take k)).length

/-- What is registered for a class before it is filled in. -/
def blankEntry (i : Nat) (name : String) : ClassEntry := ⟨⟨⟨i⟩, name, []⟩, none, []⟩

/-- What is registered in the end for the class at place `i`. -/
def entry (p : Program) (i : Nat) (desc : ClassDesc) : ClassEntry where
  decl := ⟨⟨i⟩, desc.name, desc.fields.map .field ++
    (List.range' (p.methodsBefore i) desc.methods.length).map fun j => .method ⟨j⟩⟩
  superclass := desc.superclass.map p.classId
  interfaces := desc.interfaces.map p.classId

/-- The hierarchy in which all classes are registered and the first `k` are filled in. -/
def filled (p : Program) (k : Nat) : Hierarchy where
  classes := (p.classes.mapIdx fun i desc =>
    if i < k then p.entry i desc else blankEntry i desc.name).toArray
  methods := ((ownedMethods (p.classes.take k)).mapIdx fun j owned =>
    MethodDecl.mk owned.2 ⟨j⟩ owned.1).toArray

/-- The hierarchy that the description lays out. -/
def hierarchy (p : Program) : Hierarchy := p.filled p.classes.length

theorem fields_entry (p : Program) (i : Nat) (desc : ClassDesc) :
    (p.entry i desc).decl.fields = desc.fields := by
  simp [entry, ClassDecl.fields, List.filterMap_map, Function.comp_def, Member.field?]

theorem registered?_filled (k : Nat) (c : ClassId) :
    (p.filled k).registered? c = (p.classes[c.index]?).map fun desc =>
      if c.index < k then p.entry c.index desc else blankEntry c.index desc.name := by
  simp [registered?, filled]

theorem className?_filled (k : Nat) (c : ClassId) :
    (p.filled k).className? c = p.classNames[c.index]? := by
  rw [className?, class?, registered?_filled, classNames, List.getElem?_map, Option.map_map,
    Option.map_map]
  congr 1
  ext desc
  by_cases hfilled : c.index < k
  · simp [hfilled, entry]
  · simp [hfilled, blankEntry]

theorem registered?_filled_of_lt {i : Nat} (hdesc : p.classes[i]? = some desc) (hi : i < k) :
    (p.filled k).registered? ⟨i⟩ = some (p.entry i desc) := by
  rw [registered?_filled, hdesc, Option.map_some, if_pos hi]

theorem registered?_filled_of_le {i : Nat} (hdesc : p.classes[i]? = some desc) (hi : k ≤ i) :
    (p.filled k).registered? ⟨i⟩ = some (blankEntry i desc.name) := by
  rw [registered?_filled, hdesc, Option.map_some, if_neg (Nat.not_lt.mpr hi)]

/-- The edges of a hierarchy under construction are those described for the classes that are
filled in. -/
theorem within_filled (hwf : p.WellFormed) (k : Nat) : p.Within (p.filled k) where
  className := className?_filled k
  edge := by
    intro c s hdirect
    cases c with
    | mk i =>
        have hcount : i < (p.filled k).classCount := lt_classCount_of_directSupertype hdirect
        have hi : i < p.classes.length := by simpa [filled, classCount] using hcount
        have hdesc : p.classes[i]? = some p.classes[i] := List.getElem?_eq_getElem hi
        have hmem : p.classes[i] ∈ p.classes := List.getElem_mem hi
        have hname : (p.filled k).className? ⟨i⟩ = some p.classes[i].name := by
          rw [className?_filled, classNames, List.getElem?_map, hdesc]
          rfl
        by_cases hk : i < k
        · have hsupertypes : (p.filled k).directSupertypes ⟨i⟩ =
              p.classes[i].supertypes.map p.classId := by
            rw [directSupertypes_of_registered? (registered?_filled_of_lt hdesc hk)]
            simp [entry, ClassDesc.supertypes, Option.toList_map]
          have hs : s ∈ p.classes[i].supertypes.map p.classId := hsupertypes ▸ hdirect
          obtain ⟨b, hb, rfl⟩ := List.mem_map.mp hs
          have hbelow : p.Below p.classes[i].name b := ⟨_, hmem, rfl, hb⟩
          refine ⟨p.classes[i].name, b, hname, ?_, hbelow⟩
          rw [className?_filled, getElem?_classId (hwf.known _ _ hbelow)]
        · have hnone : (p.filled k).directSupertypes ⟨i⟩ = [] := by
            rw [directSupertypes_of_registered?
              (registered?_filled_of_le hdesc (Nat.not_lt.mp hk))]
            rfl
          have hs : s ∈ ([] : List ClassId) := hnone ▸ hdirect
          exact absurd hs List.not_mem_nil

/-- A described name is the name of the class that takes its identity. -/
theorem className?_hierarchy_classId (hwf : p.WellFormed) {name : String}
    (hname : name ∈ p.classNames) : p.hierarchy.className? (p.classId name) = some name :=
  (within_filled hwf _).className?_classId hname

/-! ## Registering the classes -/

/-- One more class of a new name is registered behind the others. -/
theorem addClass_filled_zero {classes : List ClassDesc} {desc : ClassDesc}
    (hnew : desc.name ∉ classNames ⟨classes⟩) :
    (filled ⟨classes⟩ 0).addClass desc.name = .ok (filled ⟨classes ++ [desc]⟩ 0) := by
  refine addClass_eq_ok_iff.mpr ⟨?_, ?_⟩
  · refine List.find?_eq_none.mpr fun c _ hc => hnew ?_
    rw [className?_filled, beq_iff_eq] at hc
    exact List.mem_of_getElem? hc
  · have hcount : (filled ⟨classes⟩ 0).nextClassId = ⟨classes.length⟩ := by
      simp [filled, nextClassId, classCount]
    unfold withClass
    rw [hcount]
    simp [filled, ownedMethods, blankEntry]

/-- Classes of distinct names are registered one after the other. -/
theorem registerClasses_eq_ok (hnodup : p.classNames.Nodup) :
    registerClasses p.classes = .ok (p.filled 0) := by
  obtain ⟨classes⟩ := p
  induction classes using List.reverseRecOn with
  | nil => rfl
  | append_singleton rest desc ih =>
      have hsplit : (rest.map (·.name) ++ [desc.name]).Nodup := by
        simpa [classNames] using hnodup
      rw [List.nodup_append] at hsplit
      obtain ⟨hrest, -, hdistinct⟩ := hsplit
      have hnew : desc.name ∉ classNames ⟨rest⟩ := fun hmem =>
        hdistinct _ hmem _ List.mem_cons_self rfl
      have hregistered : rest.foldlM (fun h desc => h.addClass desc.name) Hierarchy.empty =
          .ok (filled ⟨rest⟩ 0) := ih hrest
      show (rest ++ [desc]).foldlM (fun h desc => h.addClass desc.name) Hierarchy.empty = _
      rw [List.foldlM_append, hregistered]
      show [desc].foldlM (fun h desc => h.addClass desc.name) (filled ⟨rest⟩ 0) = _
      rw [List.foldlM_cons, addClass_filled_zero hnew]
      rfl

/-! ## Filling in a class -/

/-- The superclass of a class that has none yet is set as described. -/
theorem extendDescribed_eq_ok (hwf : p.WellFormed) (hin : p.Within h) (hdesc : desc ∈ p.classes)
    (hblank : h.superclass? (p.classId desc.name) = none) :
    ∃ next, h.extendDescribed (p.classId desc.name) desc = .ok next ∧ p.Within next ∧
      next = h.modifyEntry (p.classId desc.name) fun entry =>
        { entry with superclass := desc.superclass.map p.classId } := by
  unfold extendDescribed
  cases hsuper : desc.superclass with
  | none =>
      refine ⟨h, rfl, hin, (modifyEntry_eq_self fun entry hentry => ?_).symm⟩
      have hnone : entry.superclass = none := by
        rwa [superclass?, hentry] at hblank
      rw [Option.map_none, ← hnone]
  | some name =>
      have hbelow : p.Below desc.name name :=
        ⟨desc, hdesc, rfl, by simp [ClassDesc.supertypes, hsuper]⟩
      have hname : name ∈ p.classNames := hwf.known _ _ hbelow
      have hset : (Operation.setSuperclass (p.classId desc.name) (p.classId name)).apply h =
          .ok (h.withSuperclass (p.classId desc.name) (p.classId name)) :=
        setSuperclass_eq_ok_iff.mpr ⟨⟨hblank, hin.edgeRefusal?_eq_none hwf hbelow⟩, rfl⟩
      refine ⟨_, ?_, hin.apply_edge hwf hbelow rfl hset, rfl⟩
      show (h.resolveClassName name desc.name >>= fun s => h.setSuperclass _ s) = _
      rw [hin.resolveClassName_eq_ok hwf hname]
      exact hset

/-- The described interfaces are put behind those that the class has. -/
theorem foldlM_implementDescribed_eq_ok (hwf : p.WellFormed) (hin : p.Within h)
    {names : List String} (hbelow : ∀ name ∈ names, p.Below desc.name name) :
    names.foldlM (fun h name => h.implementDescribed (p.classId desc.name) desc name) h =
      .ok (h.modifyEntry (p.classId desc.name) fun entry =>
        { entry with interfaces := entry.interfaces ++ names.map p.classId }) := by
  induction names generalizing h with
  | nil =>
      have hsame : h.modifyEntry (p.classId desc.name) (fun entry =>
          { entry with interfaces := entry.interfaces ++ [].map p.classId }) = h :=
        modifyEntry_eq_self fun entry _ => by rw [List.map_nil, List.append_nil]
      rw [hsame]
      rfl
  | cons name rest ih =>
      have hfirst : p.Below desc.name name := hbelow name List.mem_cons_self
      have hadd : (Operation.addInterface (p.classId desc.name) (p.classId name)).apply h =
          .ok (h.withInterface (p.classId desc.name) (p.classId name)) :=
        addInterface_eq_ok_iff.mpr ⟨hin.edgeRefusal?_eq_none hwf hfirst, rfl⟩
      have hstep : h.implementDescribed (p.classId desc.name) desc name =
          .ok (h.withInterface (p.classId desc.name) (p.classId name)) := by
        unfold implementDescribed
        rw [hin.resolveClassName_eq_ok hwf (hwf.known _ _ hfirst)]
        exact hadd
      have hrest := ih (hin.apply_edge hwf hfirst rfl hadd)
        fun other hother => hbelow other (List.mem_cons_of_mem _ hother)
      rw [List.foldlM_cons, hstep]
      refine hrest.trans ?_
      unfold Hierarchy.withInterface
      rw [modifyEntry_modifyEntry]
      simp only [Function.comp_def, List.append_assoc, List.map_cons, List.singleton_append]

theorem ownedMethods_take_succ (hdesc : p.classes[k]? = some desc) :
    ownedMethods (p.classes.take (k + 1)) = ownedMethods (p.classes.take k) ++
      desc.methods.map fun method => (ClassId.mk k, method.toMethodSpec) := by
  have hk : k < p.classes.length := (List.getElem?_eq_some_iff.mp hdesc).1
  have hlength : (p.classes.take k).length = k := by
    rw [List.length_take]
    omega
  unfold ownedMethods
  rw [List.take_add_one, hdesc, Option.toList_some, List.mapIdx_append, List.flatten_append,
    hlength]
  simp

/-- Once its supertypes are in place, a class is filled in by appending its members. -/
theorem filled_succ (hdesc : p.classes[k]? = some desc)
    (hmethods : h.methods = (p.filled k).methods)
    (hlookup : ∀ d, h.registered? d = if (⟨k⟩ : ClassId) = d then
      some ⟨⟨⟨k⟩, desc.name, []⟩, desc.superclass.map p.classId, desc.interfaces.map p.classId⟩
      else (p.filled k).registered? d) :
    (h.appendMembers ⟨k⟩ (desc.fields.map .field)).withMethods ⟨k⟩
      (desc.methods.map (·.toMethodSpec)) = p.filled (k + 1) := by
  have hcount : h.methodCount = p.methodsBefore k := by
    unfold methodCount
    rw [hmethods]
    simp [filled, methodsBefore]
  refine ext_lookups (fun d => ?_) ?_
  · show (((h.appendMembers ⟨k⟩ (desc.fields.map .field)).appendMembers ⟨k⟩
      ((List.range' h.methodCount _).map fun j => .method ⟨j⟩)).registered? d) = _
    rw [appendMembers_appendMembers, hcount, appendMembers, registered?_modifyEntry, hlookup]
    -- Only the entry at place `k` differs between the two hierarchies.
    by_cases hkd : (⟨k⟩ : ClassId) = d
    · subst hkd
      rw [if_pos rfl, if_pos rfl, registered?_filled_of_lt hdesc (Nat.lt_succ_self k)]
      simp [entry]
    · have hne : d.index ≠ k := fun heq => hkd (by cases d; exact congrArg ClassId.mk heq.symm)
      have hiff : d.index < k + 1 ↔ d.index < k := by omega
      rw [if_neg hkd, if_neg hkd, registered?_filled, registered?_filled]
      simp only [hiff]
  · show h.methods ++ (List.mapIdx (fun j spec => MethodDecl.mk spec ⟨h.methodCount + j⟩ ⟨k⟩)
      (desc.methods.map (·.toMethodSpec))).toArray = _
    rw [hcount, hmethods]
    refine Array.ext' ?_
    simp only [filled, ownedMethods_take_succ hdesc, List.mapIdx_append, methodsBefore,
      Array.toList_append]
    congr 1
    ext1 j
    simp [Nat.add_comm, Function.comp_def]

/-- The turn of the loop: the next class is filled in. -/
theorem fillClass_filled (hwf : p.WellFormed) (hdesc : p.classes[k]? = some desc) :
    (p.filled k).fillClass desc = .ok (p.filled (k + 1)) := by
  have hmem : desc ∈ p.classes := List.mem_of_getElem? hdesc
  have hid : p.classId desc.name = ⟨k⟩ := hwf.classId_of_getElem? hdesc
  have hin : p.Within (p.filled k) := within_filled hwf k
  have hentry : (p.filled k).registered? ⟨k⟩ = some (blankEntry k desc.name) :=
    registered?_filled_of_le hdesc (Nat.le_refl k)
  have hblank : (p.filled k).superclass? (p.classId desc.name) = none := by
    rw [hid, superclass?, hentry]
    rfl
  obtain ⟨extended, hextend, hin₁, hextended⟩ := extendDescribed_eq_ok hwf hin hmem hblank
  have hbelow : ∀ name ∈ desc.interfaces, p.Below desc.name name := fun _ hname =>
    ⟨desc, hmem, rfl, List.mem_append_right _ hname⟩
  have himplement := foldlM_implementDescribed_eq_ok hwf hin₁ hbelow
  rw [hid] at hextended hextend himplement
  -- The class has all its supertypes now and no members yet.
  generalize himplemented : extended.modifyEntry ⟨k⟩ (fun entry =>
    { entry with interfaces := entry.interfaces ++ desc.interfaces.map p.classId }) = implemented
    at himplement
  have hlookup : ∀ d, implemented.registered? d = if (⟨k⟩ : ClassId) = d then
      some ⟨⟨⟨k⟩, desc.name, []⟩, desc.superclass.map p.classId,
        desc.interfaces.map p.classId⟩ else (p.filled k).registered? d := by
    intro d
    rw [← himplemented, hextended, registered?_modifyEntry, registered?_modifyEntry]
    by_cases hkd : (⟨k⟩ : ClassId) = d
    · rw [if_pos hkd, if_pos hkd, if_pos hkd, ← hkd, hentry]
      rfl
    · rw [if_neg hkd, if_neg hkd, if_neg hkd]
  have hmethods : implemented.methods = (p.filled k).methods := by
    rw [← himplemented, hextended]
    rfl
  have hregistered : implemented.registered? ⟨k⟩ = some ⟨⟨⟨k⟩, desc.name, []⟩,
      desc.superclass.map p.classId, desc.interfaces.map p.classId⟩ := by
    rw [hlookup, if_pos rfl]
  have hclass : implemented.class? ⟨k⟩ = some ⟨⟨k⟩, desc.name, []⟩ := by
    rw [class?, hregistered]
    rfl
  have hfields := foldlM_addField_eq_ok hclass (hwf.fields_nodup desc hmem)
  have hcount : (⟨k⟩ : ClassId).index <
      (implemented.appendMembers ⟨k⟩ (desc.fields.map .field)).classCount := by
    unfold appendMembers
    rw [classCount_modifyEntry, ← registered?_isSome_iff, hregistered]
    rfl
  have hadd := foldlM_addMethod_eq_ok hcount desc.methods
  unfold fillClass
  rw [hin.resolveClassName_eq_ok hwf (mem_classNames_of_mem hmem), hid]
  simp only [bind, Except.bind, hextend, himplement, hfields, hadd]
  rw [filled_succ hdesc hmethods hlookup]

/-! ## The loop -/

theorem foldlM_fillClass_take (hwf : p.WellFormed) (hk : k ≤ p.classes.length) :
    (p.classes.take k).foldlM fillClass (p.filled 0) = .ok (p.filled k) := by
  induction k with
  | zero => rfl
  | succ k ih =>
      have hdesc : p.classes[k]? = some p.classes[k] := List.getElem?_eq_getElem hk
      rw [List.take_add_one, hdesc, Option.toList_some, List.foldlM_append, ih (by omega)]
      show [p.classes[k]].foldlM fillClass (p.filled k) = _
      rw [List.foldlM_cons, fillClass_filled hwf hdesc]
      rfl

/-- A well-formed description builds the hierarchy that it lays out. -/
theorem ofProgram_eq_ok (hwf : p.WellFormed) : ofProgram p = .ok p.hierarchy := by
  have hfill := foldlM_fillClass_take hwf (Nat.le_refl p.classes.length)
  rw [List.take_length] at hfill
  unfold ofProgram
  rw [registerClasses_eq_ok hwf.names_nodup]
  exact hfill

end Program

end FieldContracts
