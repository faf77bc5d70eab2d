import FieldContracts.Proofs.Check.Renaming
import FieldContracts.Proofs.Program.Description
import FieldContracts.Proofs.Program.Runs
import Mathlib.Data.Set.Function

/-!
# Describing a hierarchy and building it again

`Reloaded h h' r` says that `h'` is `h` with the members of each class regrouped and the methods
renumbered by `r`, and that nothing else can be told apart: not by looking up fields, not by
searching for overridden methods, not by checking.  `exists_reloaded` says that every reachable
hierarchy is reloaded from its description in this way, with `place` as renumbering.
-/

namespace FieldContracts

namespace Hierarchy

variable {h h' : Hierarchy} {m n : MethodId}

/-- The hierarchy `h'` is `h` with fields in front of methods and methods renumbered. -/
structure Reloaded (h h' : Hierarchy) (renumber : MethodId → MethodId) : Prop where
  classIds : h'.classIds = h.classIds
  class? : ∀ c, h'.class? c = (h.class? c).map fun decl =>
    { decl with members :=
        decl.fields.map .field ++ decl.methodIds.map fun m => .method (renumber m) }
  superclass? : ∀ c, h'.superclass? c = h.superclass? c
  interfaces : ∀ c, h'.interfaces c = h.interfaces c
  bijective : Set.BijOn renumber {m | m ∈ h.methodIds} {m | m ∈ h'.methodIds}
  increasing : ∀ m n decl decl', h.method? m = some decl → h.method? n = some decl' →
    decl.owner = decl'.owner → m.index < n.index → (renumber m).index < (renumber n).index
  class_order : ∀ m n decl decl', h.method? m = some decl → h.method? n = some decl' →
    decl.owner.index < decl'.owner.index → (renumber m).index < (renumber n).index
  method? : ∀ m decl, h.method? m = some decl →
    h'.method? (renumber m) = some { decl with id := renumber m }
  resolveField : ∀ c name, h'.resolveField c name = h.resolveField c name
  closestOverridden? : ∀ m ∈ h.methodIds,
    h'.closestOverridden? (renumber m) = (h.closestOverridden? m).map renumber
  checkAll : ∀ config : Config, config.checkAll h' ExitFacts.unknown =
    (config.checkAll h ExitFacts.unknown).map (Diagnostic.relocate renumber)

/-- The identity that a method takes when its hierarchy is described and built again. -/
def renumber (h : Hierarchy) (m : MethodId) : MethodId := ⟨h.place m⟩

/-! ## Look-ups in the hierarchy built again -/

theorem classIds_hierarchy_toProgram (h : Hierarchy) :
    h.toProgram.hierarchy.classIds = h.classIds := by
  have hcount : h.toProgram.hierarchy.classCount = h.classCount := by
    rw [← length_classes_toProgram h]
    simp [Program.hierarchy, Program.filled, classCount]
  unfold classIds
  rw [hcount]

theorem class?_hierarchy_toProgram (hwf : h.WellFormed) (hco : h.Coherent) (c : ClassId) :
    h.toProgram.hierarchy.class? c = (h.class? c).map h.layOut := by
  rw [class?, registered?_hierarchy_toProgram hwf hco, class?, Option.map_map, Option.map_map]
  rfl

theorem superclass?_hierarchy_toProgram (hwf : h.WellFormed) (hco : h.Coherent) (c : ClassId) :
    h.toProgram.hierarchy.superclass? c = h.superclass? c := by
  rw [superclass?, registered?_hierarchy_toProgram hwf hco, superclass?, Option.bind_map]
  rfl

theorem interfaces_hierarchy_toProgram (hwf : h.WellFormed) (hco : h.Coherent) (c : ClassId) :
    h.toProgram.hierarchy.interfaces c = h.interfaces c := by
  rw [interfaces, registered?_hierarchy_toProgram hwf hco, interfaces, Option.map_map]
  rfl

@[simp]
theorem fields_layOut (decl : ClassDecl) : (h.layOut decl).fields = decl.fields := by
  simp [layOut, ClassDecl.fields, List.filterMap_map, Function.comp_def, Member.field?]

@[simp]
theorem methodIds_layOut (decl : ClassDecl) :
    (h.layOut decl).methodIds = decl.methodIds.map h.renumber := by
  simp [layOut, ClassDecl.methodIds, List.filterMap_map, Function.comp_def, Member.methodId?,
    renumber]

theorem declaredField?_hierarchy_toProgram (hwf : h.WellFormed) (hco : h.Coherent) (c : ClassId)
    (name : String) : h.toProgram.hierarchy.declaredField? c name = h.declaredField? c name := by
  rw [declaredField?, class?_hierarchy_toProgram hwf hco, declaredField?]
  cases h.class? c with
  | none => rfl
  | some decl => simp [ClassDecl.field?]

theorem declaredMethods_hierarchy_toProgram (hwf : h.WellFormed) (hco : h.Coherent)
    (c : ClassId) :
    h.toProgram.hierarchy.declaredMethods c = (h.declaredMethods c).map h.renumber := by
  rw [declaredMethods, class?_hierarchy_toProgram hwf hco, declaredMethods]
  cases h.class? c with
  | none => rfl
  | some decl => simp

/-- All classes agree up to the new identities of the methods. -/
theorem renamedTo_hierarchy_toProgram (hwf : h.WellFormed) (hco : h.Coherent) :
    h.RenamedTo h.toProgram.hierarchy (fun _ => True) ⟨id, h.renumber⟩ where
  upward := fun _ _ _ _ => True.intro
  injective := fun _ _ _ _ heq => heq
  className := by
    intro c _
    show h.toProgram.hierarchy.className? c = _
    rw [className?, class?_hierarchy_toProgram hwf hco, className?, Option.map_map]
    rfl
  superclass := fun c _ => by
    rw [Option.map_id]
    exact superclass?_hierarchy_toProgram hwf hco c
  interfaces := fun c _ => by
    rw [List.map_id]
    exact interfaces_hierarchy_toProgram hwf hco c
  declaredField := fun c name _ => declaredField?_hierarchy_toProgram hwf hco c name
  declaredMethods := fun c _ => declaredMethods_hierarchy_toProgram hwf hco c
  method := fun _ _ hm _ => method?_hierarchy_toProgram hco hm

/-! ## Renumbering -/

theorem renumber_lt_of_precedes (hco : h.Coherent) (hmn : h.Precedes m n) :
    (h.renumber m).index < (h.renumber n).index :=
  place_lt_of_precedes hco hmn

theorem bijOn_renumber (hco : h.Coherent) :
    Set.BijOn h.renumber {m | m ∈ h.methodIds} {m | m ∈ h.toProgram.hierarchy.methodIds} := by
  refine ⟨?_, ?_, ?_⟩
  · intro m hm
    have hplace := getElem?_place hco hm
    show h.renumber m ∈ h.toProgram.hierarchy.methodIds
    rw [mem_methodIds_iff, methodCount_hierarchy_toProgram hco]
    exact (List.getElem?_eq_some_iff.mp hplace).1
  · intro m hm n hn heq
    have hsame : h.place m = h.place n := congrArg MethodId.index heq
    have hplace := getElem?_place hco hm
    rw [hsame, getElem?_place hco hn] at hplace
    exact (Option.some.inj hplace).symm
  · intro k hk
    have hlt : k.index < h.methodOrder.length := by
      rw [← methodCount_hierarchy_toProgram hco]
      exact mem_methodIds_iff.mp hk
    have hget : h.methodOrder[k.index]? = some h.methodOrder[k.index] :=
      List.getElem?_eq_getElem hlt
    refine ⟨h.methodOrder[k.index], ?_, ?_⟩
    · exact (mem_methodOrder_iff hco).mp (List.getElem_mem hlt)
    · exact congrArg MethodId.mk (place_of_getElem? hco hget)

/-- The hierarchy that a well-formed and coherent one describes is the same up to the order of
members and the identities of methods. -/
theorem reloaded_hierarchy_toProgram (hwf : h.WellFormed) (hco : h.Coherent)
    (hwf' : h.toProgram.hierarchy.WellFormed) :
    Reloaded h h.toProgram.hierarchy h.renumber where
  classIds := classIds_hierarchy_toProgram h
  class? := class?_hierarchy_toProgram hwf hco
  superclass? := superclass?_hierarchy_toProgram hwf hco
  interfaces := interfaces_hierarchy_toProgram hwf hco
  bijective := bijOn_renumber hco
  increasing := fun m n decl decl' hm hn howner hlt =>
    renumber_lt_of_precedes hco ⟨decl, decl', hm, hn, Or.inr ⟨howner, hlt⟩⟩
  class_order := fun m n decl decl' hm hn hlt =>
    renumber_lt_of_precedes hco ⟨decl, decl', hm, hn, Or.inl hlt⟩
  method? := fun _ _ hm => method?_hierarchy_toProgram hco hm
  resolveField := by
    intro c name
    have hsame := (renamedTo_hierarchy_toProgram hwf hco).resolveField_renamed hwf hwf'
      (c := c) True.intro name
    exact hsame.trans Option.map_id_apply
  closestOverridden? := by
    intro m hm
    obtain ⟨decl, hdecl⟩ := exists_method?_iff.mpr (mem_methodIds_iff.mp hm)
    exact (renamedTo_hierarchy_toProgram hwf hco).closestOverridden?_renamed hco hdecl True.intro
  checkAll := by
    intro config
    unfold Config.checkAll
    rw [classIds_hierarchy_toProgram, List.map_flatMap]
    refine List.flatMap_congr fun c _ => ?_
    exact Config.checkClass_renamed (renamedTo_hierarchy_toProgram hwf hco) hwf hwf' hco
      True.intro (fun _ _ => rfl) config

/-- Every reachable hierarchy is described by a program that builds it again, with members
regrouped and methods renumbered. -/
theorem exists_reloaded (ops : List Operation) :
    ∃ h' renumber, ofProgram (after ops).toProgram = .ok h' ∧
      Reloaded (after ops) h' renumber := by
  have hreach : (after ops).Reachable := ⟨ops, rfl⟩
  have hwf : (after ops).WellFormed := hreach.wellFormed
  have hco : (after ops).Coherent := hreach.coherent
  have hbuild : ofProgram (after ops).toProgram = .ok (after ops).toProgram.hierarchy :=
    Program.ofProgram_eq_ok (toProgram_wellFormed hwf hco)
  have hwf' : (after ops).toProgram.hierarchy.WellFormed :=
    (reachable_of_ofProgram hbuild).wellFormed
  exact ⟨_, (after ops).renumber, hbuild, reloaded_hierarchy_toProgram hwf hco hwf'⟩

end Hierarchy

end FieldContracts
