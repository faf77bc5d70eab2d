import FieldContracts.Program.Basic
import FieldContracts.Proofs.Hierarchy.Steps

/-!
# Adding many members to a class

`appendMembers` and `withMethods` extend one class by several members at once.
`foldlM_addField_eq_ok` and `foldlM_addMethod_eq_ok` say that the loops which add fields and
methods one after the other arrive at the same hierarchies.
-/

namespace FieldContracts

namespace Hierarchy

variable {h h' : Hierarchy} {c d : ClassId} {decl : ClassDecl}

/-! ## Changes of one entry -/

theorem ext_lookups (hclass : ∀ c, h.registered? c = h'.registered? c)
    (hmethods : h.methods = h'.methods) : h = h' := by
  have hclasses : h.classes = h'.classes := by
    refine Array.ext_getElem? fun i => ?_
    exact hclass ⟨i⟩
  cases h
  cases h'
  rw [Hierarchy.mk.injEq]
  exact ⟨hclasses, hmethods⟩

/-- A change that leaves the entry of the class as it is changes nothing. -/
theorem modifyEntry_eq_self {change : ClassEntry → ClassEntry}
    (hsame : ∀ entry, h.registered? c = some entry → change entry = entry) :
    h.modifyEntry c change = h := by
  refine ext_lookups (fun d => ?_) rfl
  rw [registered?_modifyEntry]
  by_cases hcd : c = d
  · rw [if_pos hcd, ← hcd]
    cases hentry : h.registered? c with
    | none => rfl
    | some entry => rw [Option.map_some, hsame entry hentry]
  · rw [if_neg hcd]

theorem modifyEntry_modifyEntry (change next : ClassEntry → ClassEntry) :
    (h.modifyEntry c change).modifyEntry c next = h.modifyEntry c (next ∘ change) := by
  refine ext_lookups (fun d => ?_) rfl
  simp only [registered?_modifyEntry]
  by_cases hcd : c = d
  · simp only [if_pos hcd, Option.map_map]
  · simp only [if_neg hcd]

/-! ## Several members at once -/

/-- Puts members after those of the class. -/
def appendMembers (h : Hierarchy) (c : ClassId) (members : List Member) : Hierarchy :=
  h.modifyEntry c fun entry =>
    { entry with decl := { entry.decl with members := entry.decl.members ++ members } }

theorem appendMembers_nil : h.appendMembers c [] = h := by
  refine modifyEntry_eq_self fun entry _ => ?_
  rw [List.append_nil]

theorem appendMembers_appendMembers (first second : List Member) :
    (h.appendMembers c first).appendMembers c second = h.appendMembers c (first ++ second) := by
  unfold appendMembers
  rw [modifyEntry_modifyEntry]
  simp only [Function.comp_def, List.append_assoc]

/-- The hierarchy with more methods, which come last among the members of `c`. -/
def withMethods (h : Hierarchy) (c : ClassId) (specs : List MethodSpec) : Hierarchy :=
  { h.appendMembers c ((List.range' h.methodCount specs.length).map fun j => .method ⟨j⟩) with
    methods := h.methods ++
      (specs.mapIdx fun j spec => MethodDecl.mk spec ⟨h.methodCount + j⟩ c).toArray }

theorem withMethods_nil : h.withMethods c [] = h := by
  have hsame : h.appendMembers c [] = h := appendMembers_nil
  unfold withMethods
  simp only [List.length_nil, List.range'_zero, List.map_nil, List.mapIdx_nil, hsame]
  rw [Array.append_empty]

/-- Methods may be added one at a time. -/
theorem withMethods_cons (spec : MethodSpec) (specs : List MethodSpec) :
    (h.withMethod c spec).withMethods c specs = h.withMethods c (spec :: specs) := by
  have hcount : (h.withMethod c spec).methodCount = h.methodCount + 1 := Array.size_push ..
  refine ext_lookups (fun d => ?_) ?_
  · show (((h.appendMembers c [.method ⟨h.methodCount⟩]).appendMembers c _).registered? d) = _
    rw [appendMembers_appendMembers, hcount]
    rfl
  · show h.methods.push ⟨spec, ⟨h.methodCount⟩, c⟩ ++ _ = h.methods ++ _
    rw [hcount]
    refine Array.ext' ?_
    simp [List.mapIdx_cons, Nat.add_assoc, Nat.add_comm 1]

/-! ## Adding members in a loop -/

/-- Fields of names that the class has not declared are added one after the other. -/
theorem foldlM_addField_eq_ok (hdecl : h.class? c = some decl) {fields : List FieldDecl}
    (hnodup : ((decl.fields ++ fields).map (·.name)).Nodup) :
    fields.foldlM (fun h field => h.addField c field) h =
      .ok (h.appendMembers c (fields.map .field)) := by
  induction fields generalizing h decl with
  | nil =>
      rw [List.map_nil, appendMembers_nil]
      rfl
  | cons field rest ih =>
      have hfree : decl.field? field.name = none := by
        refine List.find?_eq_none.mpr fun other hother => ?_
        have hne : other.name ≠ field.name := by
          rw [List.map_append, List.nodup_append] at hnodup
          exact hnodup.2.2 _ (List.mem_map_of_mem hother) _ List.mem_cons_self
        simpa using hne
      have hadd : h.addField c field = .ok (h.appendMember c (.field field)) :=
        addField_eq_ok_iff.mpr ⟨⟨decl, hdecl, hfree⟩, rfl⟩
      have hnext := class?_appendMember_self hdecl (.field field)
      -- The field joins those that the rest of the names must differ from.
      rw [List.foldlM_cons, hadd]
      show rest.foldlM (fun h field => h.addField c field) (h.appendMember c (.field field)) = _
      rw [ih hnext (by
        rwa [ClassDecl.fields_append_field, List.append_assoc, List.singleton_append])]
      show Except.ok ((h.appendMembers c [.field field]).appendMembers c (rest.map .field)) = _
      rw [appendMembers_appendMembers]
      rfl

/-- Methods are added to a registered class one after the other. -/
theorem foldlM_addMethod_eq_ok (hc : c.index < h.classCount) (methods : List MethodDesc) :
    methods.foldlM (fun h method => h.addMethod c method.toMethodSpec) h =
      .ok (h.withMethods c (methods.map (·.toMethodSpec))) := by
  induction methods generalizing h with
  | nil =>
      rw [List.map_nil, withMethods_nil]
      rfl
  | cons method rest ih =>
      have hadd : h.addMethod c method.toMethodSpec = .ok (h.withMethod c method.toMethodSpec) :=
        addMethod_eq_ok_iff.mpr ⟨hc, rfl⟩
      rw [List.foldlM_cons, hadd]
      show rest.foldlM (fun h method => h.addMethod c method.toMethodSpec)
        (h.withMethod c method.toMethodSpec) = _
      rw [ih (by rwa [classCount_withMethod]), withMethods_cons, List.map_cons]

end Hierarchy

end FieldContracts
