import FieldContracts.Proofs.Hierarchy.MethodOrder
import FieldContracts.Proofs.Program.Acceptance

/-!
# Described methods and their exit facts

The hierarchy that a description lays out numbers the methods through.  `Program.methodId i k` is
the number of the method at place `k` of the class at place `i`; `method?_methodId` says what is
registered under it, `exists_methodId` that nothing else is registered, and
`facts_ofProgram_methodId` which exit facts the description states about it.
-/

namespace FieldContracts

namespace FactTable

/-- Takes what the description of a method says of its exits. -/
def record (t : FactTable) (pair : MethodId × MethodDesc) : FactTable :=
  match pair.2.nonNullAtExit with
  | some fields => t.insert pair.1 (NameSet.ofList fields)
  | none => t

variable {t : FactTable} {m : MethodId} {method : MethodDesc}

theorem facts_record_self (hfree : t.facts m = none) :
    (t.record (m, method)).facts m = method.nonNullAtExit.map NameSet.ofList := by
  cases hexit : method.nonNullAtExit with
  | none => simpa [record, hexit] using hfree
  | some fields => simp [record, hexit, facts_insert_self]

theorem facts_record_of_ne {other : MethodId} (hne : other ≠ m) :
    (t.record (m, method)).facts other = t.facts other := by
  cases hexit : method.nonNullAtExit with
  | none => simp [record, hexit]
  | some fields => simp [record, hexit, facts_insert_of_ne t hne]

/-- Recording other methods leaves the facts about this one alone. -/
theorem facts_foldl_record_of_not_mem {pairs : List (MethodId × MethodDesc)}
    (hm : m ∉ pairs.map (·.1)) : (pairs.foldl record t).facts m = t.facts m := by
  induction pairs generalizing t with
  | nil => rfl
  | cons pair rest ih =>
      rw [List.map_cons, List.mem_cons, not_or] at hm
      rw [List.foldl_cons, ih hm.2]
      exact facts_record_of_ne hm.1

/-- If no method is listed twice, each has the facts of its own description. -/
theorem facts_foldl_record {pairs : List (MethodId × MethodDesc)}
    (hnodup : (pairs.map (·.1)).Nodup) (hmem : (m, method) ∈ pairs) (hfree : t.facts m = none) :
    (pairs.foldl record t).facts m = method.nonNullAtExit.map NameSet.ofList := by
  induction pairs generalizing t with
  | nil => simp at hmem
  | cons pair rest ih =>
      rw [List.map_cons, List.nodup_cons] at hnodup
      rw [List.foldl_cons]
      rcases List.mem_cons.mp hmem with rfl | hmem
      · rw [facts_foldl_record_of_not_mem hnodup.1, facts_record_self hfree]
      · have hne : m ≠ pair.1 := fun heq =>
          hnodup.1 (heq ▸ List.mem_map_of_mem (f := Prod.fst) hmem)
        exact ih hnodup.2 hmem ((facts_record_of_ne hne).trans hfree)

end FactTable

namespace Program

open Hierarchy

variable {p : Program} {desc : ClassDesc} {method : MethodDesc} {i k : Nat} {m : MethodId}

/-! ## Numbers of methods -/

/-- The number that the method at place `k` of the class at place `i` takes. -/
def methodId (p : Program) (i k : Nat) : MethodId := ⟨p.methodsBefore i + k⟩

theorem WellFormed.reachable (hwf : p.WellFormed) : p.hierarchy.Reachable :=
  reachable_of_ofProgram (ofProgram_eq_ok hwf)

theorem registered?_hierarchy (hdesc : p.classes[i]? = some desc) :
    p.hierarchy.registered? ⟨i⟩ = some (p.entry i desc) :=
  registered?_filled_of_lt hdesc (List.getElem?_eq_some_iff.mp hdesc).1

theorem class?_hierarchy (hdesc : p.classes[i]? = some desc) :
    p.hierarchy.class? ⟨i⟩ = some (p.entry i desc).decl :=
  class?_of_registered? (registered?_hierarchy hdesc)

theorem className?_hierarchy (hdesc : p.classes[i]? = some desc) :
    p.hierarchy.className? ⟨i⟩ = some desc.name := by
  rw [className?, class?_hierarchy hdesc]
  rfl

theorem classCount_hierarchy (p : Program) : p.hierarchy.classCount = p.classes.length := by
  simp [hierarchy, filled, classCount]

/-- The class at place `i` declares the methods of its description, in order. -/
theorem declaredMethods_hierarchy (hdesc : p.classes[i]? = some desc) :
    p.hierarchy.declaredMethods ⟨i⟩ = (List.range desc.methods.length).map (p.methodId i) := by
  rw [declaredMethods, class?_hierarchy hdesc]
  simp [entry, ClassDecl.methodIds, List.filterMap_map, Function.comp_def, Member.methodId?,
    List.range'_eq_map_range, methodId]

/-- The methods of a class stand behind those of the classes before it. -/
theorem getElem?_ownedMethods (hdesc : p.classes[i]? = some desc) (hmethod : desc.methods[k]? =
    some method) : (ownedMethods p.classes)[p.methodsBefore i + k]? =
      some (⟨i⟩, method.toMethodSpec) := by
  have hsplit : ownedMethods p.classes = ownedMethods (p.classes.take (i + 1)) ++
      ((p.classes.drop (i + 1)).mapIdx fun j desc => desc.methods.map fun method =>
        (ClassId.mk (j + (p.classes.take (i + 1)).length), method.toMethodSpec)).flatten := by
    conv_lhs => rw [← List.take_append_drop (i + 1) p.classes]
    rw [ownedMethods, List.mapIdx_append, List.flatten_append]
    rfl
  have hk : k < desc.methods.length := (List.getElem?_eq_some_iff.mp hmethod).1
  rw [hsplit, ownedMethods_take_succ hdesc, List.append_assoc, methodsBefore,
    List.getElem?_append_right (Nat.le_add_right _ _), Nat.add_sub_cancel_left,
    List.getElem?_append_left (by simpa using hk), List.getElem?_map, hmethod]
  rfl

/-- What is registered under the number of a method. -/
theorem method?_methodId (hdesc : p.classes[i]? = some desc)
    (hmethod : desc.methods[k]? = some method) :
    p.hierarchy.method? (p.methodId i k) = some ⟨method.toMethodSpec, p.methodId i k, ⟨i⟩⟩ := by
  have hget := getElem?_ownedMethods hdesc hmethod
  simp [hierarchy, filled, Hierarchy.method?, methodId, hget]

/-- Every registered method is a described one. -/
theorem exists_methodId (hwf : p.WellFormed) {decl : MethodDecl}
    (hm : p.hierarchy.method? m = some decl) :
    ∃ i k desc method, p.classes[i]? = some desc ∧ desc.methods[k]? = some method ∧
      m = p.methodId i k ∧ decl = ⟨method.toMethodSpec, p.methodId i k, ⟨i⟩⟩ := by
  have hco : p.hierarchy.Coherent := hwf.reachable.coherent
  have hi : decl.owner.index < p.classes.length :=
    classCount_hierarchy p ▸ hco.owner_registered hm
  have hdesc : p.classes[decl.owner.index]? = some p.classes[decl.owner.index] :=
    List.getElem?_eq_getElem hi
  have hlisted : m ∈ p.hierarchy.declaredMethods ⟨decl.owner.index⟩ := hco.listed m decl hm
  rw [declaredMethods_hierarchy hdesc] at hlisted
  obtain ⟨k, hk, rfl⟩ := List.mem_map.mp hlisted
  have hmethod := List.getElem?_eq_getElem (List.mem_range.mp hk)
  exact ⟨decl.owner.index, k, _, _, hdesc, hmethod, rfl,
    Option.some.inj (hm.symm.trans (method?_methodId hdesc hmethod))⟩

/-! ## Exit facts -/

/-- The described methods of a class, each with its number. -/
def numberedMethods (p : Program) (desc : ClassDesc) : List (MethodId × MethodDesc) :=
  (p.hierarchy.declaredMethods (p.classId desc.name)).zip desc.methods

theorem insertClass_hierarchy (hwf : p.WellFormed) (hdesc : desc ∈ p.classes) (t : FactTable) :
    FactTable.insertClass p.hierarchy t desc =
      (p.numberedMethods desc).foldl FactTable.record t := by
  have hfound : p.hierarchy.classId? desc.name = some (p.classId desc.name) :=
    (classId?_eq_some_iff hwf.reachable.coherent.name_unique).mpr
      (className?_hierarchy_classId hwf (mem_classNames_of_mem hdesc))
  unfold FactTable.insertClass
  rw [hfound]
  rfl

theorem ofProgram_eq_foldl_record (hwf : p.WellFormed) :
    FactTable.ofProgram p p.hierarchy =
      (p.classes.flatMap p.numberedMethods).foldl FactTable.record FactTable.empty := by
  rw [List.foldl_flatMap, FactTable.ofProgram]
  exact List.foldl_ext _ _ _ fun t desc hdesc => insertClass_hierarchy hwf hdesc t

theorem map_fst_numberedMethods (hwf : p.WellFormed) (hdesc : p.classes[i]? = some desc) :
    (p.numberedMethods desc).map (·.1) = p.hierarchy.declaredMethods ⟨i⟩ := by
  unfold numberedMethods
  rw [hwf.classId_of_getElem? hdesc, List.map_fst_zip]
  simp [declaredMethods_hierarchy hdesc]

/-- The numbers of the described methods are those of all registered methods, in order. -/
theorem map_fst_flatMap_numberedMethods (hwf : p.WellFormed) :
    (p.classes.flatMap p.numberedMethods).map (·.1) = p.hierarchy.methodOrder := by
  rw [List.map_flatMap, methodOrder, List.flatMap_def, List.flatMap_def]
  congr 1
  refine List.ext_getElem? fun i => ?_
  rw [List.getElem?_map, List.getElem?_map]
  cases hdesc : p.classes[i]? with
  | none =>
      have hout : p.classes.length ≤ i := List.getElem?_eq_none_iff.mp hdesc
      simp [classIds, classCount_hierarchy, hout]
  | some desc =>
      have hin : i < p.classes.length := (List.getElem?_eq_some_iff.mp hdesc).1
      simp [classIds, classCount_hierarchy, hin, map_fst_numberedMethods hwf hdesc]

/-- No number is given twice. -/
theorem nodup_map_fst_numberedMethods (hwf : p.WellFormed) :
    ((p.classes.flatMap p.numberedMethods).map (·.1)).Nodup := by
  rw [map_fst_flatMap_numberedMethods hwf]
  exact nodup_methodOrder hwf.reachable.coherent

theorem mem_numberedMethods (hwf : p.WellFormed) (hdesc : p.classes[i]? = some desc)
    (hmethod : desc.methods[k]? = some method) :
    (p.methodId i k, method) ∈ p.numberedMethods desc := by
  obtain ⟨hk, hget⟩ := List.getElem?_eq_some_iff.mp hmethod
  unfold numberedMethods
  rw [hwf.classId_of_getElem? hdesc, declaredMethods_hierarchy hdesc]
  refine List.mem_of_getElem? (i := k) ?_
  rw [List.getElem?_zip_eq_some]
  simp [hget, hk]

/-- The exit facts about a method are those of its own description. -/
theorem facts_ofProgram_methodId (hwf : p.WellFormed) (hdesc : p.classes[i]? = some desc)
    (hmethod : desc.methods[k]? = some method) :
    (FactTable.ofProgram p p.hierarchy).facts (p.methodId i k) =
      method.nonNullAtExit.map NameSet.ofList := by
  have hlisted : (p.methodId i k, method) ∈ p.classes.flatMap p.numberedMethods :=
    List.mem_flatMap.mpr
      ⟨desc, List.mem_of_getElem? hdesc, mem_numberedMethods hwf hdesc hmethod⟩
  rw [ofProgram_eq_foldl_record hwf]
  exact FactTable.facts_foldl_record (nodup_map_fst_numberedMethods hwf) hlisted rfl

end Program

end FieldContracts
