import FieldContracts.Hierarchy.Ascent
import FieldContracts.Hierarchy.Building

/-!
# What an accepted step changes

One equivalence for each operation says when the operation is accepted and names the hierarchy it
leaves.  Behind each of these hierarchies stand the lemmas that say what a look-up finds in it.
`performAll_induction` turns a property that every accepted step keeps into a property that every
run keeps, and `Reachable.induction` into one of all reachable hierarchies: refused steps leave the
hierarchy as it was and need no case of their own.
-/

namespace FieldContracts

/-! ## The fields of a longer member list -/

namespace ClassDecl

variable {decl : ClassDecl} {field : FieldDecl}

theorem fields_append_field (decl : ClassDecl) (field : FieldDecl) :
    ClassDecl.fields { decl with members := decl.members ++ [.field field] } =
      decl.fields ++ [field] := by
  simp [ClassDecl.fields, Member.field?]

theorem fields_append_method (decl : ClassDecl) (m : MethodId) :
    ClassDecl.fields { decl with members := decl.members ++ [.method m] } = decl.fields := by
  simp [ClassDecl.fields, Member.field?]

/-- A field of a new name keeps the names apart. -/
theorem nodup_fields_append (hold : (decl.fields.map (·.name)).Nodup)
    (hfree : decl.field? field.name = none) :
    ((decl.fields ++ [field]).map (·.name)).Nodup := by
  rw [List.map_append, List.nodup_append]
  refine ⟨hold, by simp, fun x hx y hy heq => ?_⟩
  obtain ⟨other, hother, rfl⟩ := List.mem_map.mp hx
  have hmiss := List.find?_eq_none.mp hfree other hother
  rw [List.map_singleton, List.mem_singleton] at hy
  simp [heq, hy] at hmiss

end ClassDecl

namespace Hierarchy

variable {h h' : Hierarchy} {c d s : ClassId}

/-! ## The extended hierarchies -/

/-- The hierarchy with one more class, which has no supertypes and no members. -/
def withClass (h : Hierarchy) (name : String) : Hierarchy :=
  { h with classes := h.classes.push ⟨⟨h.nextClassId, name, []⟩, none, []⟩ }

/-- The hierarchy in which `s` is the superclass of `c`. -/
def withSuperclass (h : Hierarchy) (c s : ClassId) : Hierarchy :=
  h.modifyEntry c fun entry => { entry with superclass := some s }

/-- The hierarchy in which `i` comes last among the interfaces of `c`. -/
def withInterface (h : Hierarchy) (c i : ClassId) : Hierarchy :=
  h.modifyEntry c fun entry => { entry with interfaces := entry.interfaces ++ [i] }

/-- The hierarchy with one more method, which comes last among the members of `c`. -/
def withMethod (h : Hierarchy) (c : ClassId) (spec : MethodSpec) : Hierarchy :=
  { h.appendMember c (.method h.nextMethodId) with
    methods := h.methods.push ⟨spec, h.nextMethodId, c⟩ }

/-! ## Registered classes -/

theorem registered?_eq_none_iff : h.registered? c = none ↔ h.classCount ≤ c.index := by
  simp [registered?, classCount]

theorem registered?_isSome_iff : (h.registered? c).isSome = true ↔ c.index < h.classCount := by
  simp [registered?, classCount]

theorem lt_classCount_of_registered? {entry : ClassEntry} (hentry : h.registered? c = some entry) :
    c.index < h.classCount :=
  registered?_isSome_iff.mp (by rw [hentry]; rfl)

theorem class?_of_registered? {entry : ClassEntry} (hentry : h.registered? c = some entry) :
    h.class? c = some entry.decl := by
  rw [class?, hentry, Option.map_some]

theorem class?_eq_none_iff : h.class? c = none ↔ h.classCount ≤ c.index := by
  rw [class?, Option.map_eq_none_iff, registered?_eq_none_iff]

theorem exists_class?_iff : (∃ decl, h.class? c = some decl) ↔ c.index < h.classCount := by
  rw [← Option.ne_none_iff_exists', ← Nat.not_le, ← class?_eq_none_iff, ne_eq]

theorem className?_eq_none_iff : h.className? c = none ↔ h.classCount ≤ c.index := by
  rw [className?, Option.map_eq_none_iff, class?_eq_none_iff]

theorem exists_className?_iff :
    (∃ name, h.className? c = some name) ↔ c.index < h.classCount := by
  rw [← Option.isSome_iff_exists, ← Nat.not_le, ← className?_eq_none_iff,
    Option.isSome_iff_ne_none, ne_eq]

/-- Each class is listed once. -/
theorem nodup_classIds : h.classIds.Nodup :=
  List.Pairwise.map ClassId.mk (fun _ _ hne heq => hne (congrArg ClassId.index heq))
    List.nodup_range

/-- A class with a superclass is registered. -/
theorem lt_classCount_of_superclass? (hsuper : h.superclass? c = some s) :
    c.index < h.classCount := by
  obtain ⟨entry, hentry, -⟩ := Option.bind_eq_some_iff.mp hsuper
  exact lt_classCount_of_registered? hentry

/-- A class with an interface is registered. -/
theorem lt_classCount_of_mem_interfaces (hmem : s ∈ h.interfaces c) : c.index < h.classCount := by
  refine registered?_isSome_iff.mp ?_
  cases hentry : h.registered? c with
  | none => simp [interfaces, hentry] at hmem
  | some entry => rfl

theorem mem_directSupertypes_iff :
    s ∈ h.directSupertypes c ↔ h.superclass? c = some s ∨ s ∈ h.interfaces c := by
  simp [directSupertypes]

theorem directSupertypes_of_registered? {entry : ClassEntry}
    (hentry : h.registered? c = some entry) :
    h.directSupertypes c = entry.superclass.toList ++ entry.interfaces := by
  simp [directSupertypes, superclass?, interfaces, hentry]

/-- A class with a direct supertype is registered. -/
theorem lt_classCount_of_directSupertype (hdirect : h.DirectSupertype c s) :
    c.index < h.classCount := by
  rcases mem_directSupertypes_iff.mp hdirect with hsuper | hmem
  · exact lt_classCount_of_superclass? hsuper
  · exact lt_classCount_of_mem_interfaces hmem

theorem mem_declaredMethods_iff {m : MethodId} :
    m ∈ h.declaredMethods c ↔ ∃ decl, h.class? c = some decl ∧ m ∈ decl.methodIds := by
  cases hdecl : h.class? c <;> simp [declaredMethods, hdecl]

/-! ## When a step is accepted -/

theorem addClass_eq_ok_iff {name : String} :
    h.addClass name = .ok h' ↔ h.classId? name = none ∧ h' = h.withClass name := by
  unfold addClass withClass
  cases h.classId? name with
  | none => simp [eq_comm]
  | some taken => simp

/-- An edge is accepted between registered classes if it does not lead back to where it starts. -/
theorem edgeRefusal?_eq_none_iff :
    h.edgeRefusal? c s = none ↔
      c.index < h.classCount ∧ s.index < h.classCount ∧ c ∉ h.upward s := by
  rw [← exists_className?_iff, ← exists_className?_iff]
  unfold edgeRefusal?
  cases h.className? c with
  | none => simp
  | some className =>
      cases h.className? s with
      | none => simp
      | some supertype => simp

theorem superclassRefusal?_eq_none_iff :
    h.superclassRefusal? c s = none ↔ h.superclass? c = none ∧ h.edgeRefusal? c s = none := by
  unfold superclassRefusal? superclass?
  cases h.registered? c with
  | none => simp
  | some entry =>
      cases hsuper : entry.superclass with
      | none => simp [Option.filter, hsuper]
      | some taken => simp [Option.filter, hsuper]

theorem setSuperclass_eq_ok_iff :
    h.setSuperclass c s = .ok h' ↔
      (h.superclass? c = none ∧ h.edgeRefusal? c s = none) ∧ h' = h.withSuperclass c s := by
  rw [← superclassRefusal?_eq_none_iff]
  unfold setSuperclass withSuperclass
  cases h.superclassRefusal? c s with
  | none => simp [eq_comm]
  | some refusal => simp

theorem addInterface_eq_ok_iff {i : ClassId} :
    h.addInterface c i = .ok h' ↔ h.edgeRefusal? c i = none ∧ h' = h.withInterface c i := by
  unfold addInterface withInterface
  cases h.edgeRefusal? c i with
  | none => simp [eq_comm]
  | some refusal => simp

theorem addField_eq_ok_iff {field : FieldDecl} :
    h.addField c field = .ok h' ↔
      (∃ decl, h.class? c = some decl ∧ decl.field? field.name = none) ∧
        h' = h.appendMember c (.field field) := by
  unfold addField
  cases h.class? c with
  | none => simp
  | some decl =>
      cases hfield : decl.field? field.name with
      | none =>
          simp only [hfield, Option.isSome_none, Bool.false_eq_true, if_false, Except.ok.injEq,
            Option.some.injEq, exists_eq_left', true_and]
          exact eq_comm
      | some taken => simp [hfield]

theorem addMethod_eq_ok_iff {spec : MethodSpec} :
    h.addMethod c spec = .ok h' ↔ c.index < h.classCount ∧ h' = h.withMethod c spec := by
  unfold addMethod withMethod
  cases hdecl : h.class? c with
  | none =>
      have hout : h.classCount ≤ c.index := class?_eq_none_iff.mp hdecl
      simp [Nat.not_lt.mpr hout]
  | some decl =>
      have hin : c.index < h.classCount :=
        Nat.not_le.mp fun hout => by simp [class?_eq_none_iff.mpr hout] at hdecl
      simp [hin, eq_comm]

/-! ## What look-ups find -/

/-- A view of a class entry that the change keeps is the same after the change. -/
theorem map_registered?_modifyEntry {β : Type} {change : ClassEntry → ClassEntry}
    (view : ClassEntry → β) (hview : ∀ entry, view (change entry) = view entry) :
    ((h.modifyEntry c change).registered? d).map view = (h.registered? d).map view := by
  rw [registered?_modifyEntry]
  by_cases hcd : c = d
  · rw [if_pos hcd, Option.map_map]
    exact congrArg (fun f => (h.registered? d).map f) (funext hview)
  · rw [if_neg hcd]

theorem superclass?_modifyEntry {change : ClassEntry → ClassEntry}
    (hview : ∀ entry, (change entry).superclass = entry.superclass) :
    (h.modifyEntry c change).superclass? d = h.superclass? d := by
  have hmap := map_registered?_modifyEntry (h := h) (c := c) (d := d) ClassEntry.superclass hview
  have hbind := congrArg (fun found => found.bind id) hmap
  simp only [Option.bind_map] at hbind
  exact hbind

theorem interfaces_modifyEntry {change : ClassEntry → ClassEntry}
    (hview : ∀ entry, (change entry).interfaces = entry.interfaces) :
    (h.modifyEntry c change).interfaces d = h.interfaces d :=
  congrArg (fun found => found.getD []) (map_registered?_modifyEntry ClassEntry.interfaces hview)

theorem registered?_withClass {name : String} :
    (h.withClass name).registered? d =
      if d = h.nextClassId then some ⟨⟨h.nextClassId, name, []⟩, none, []⟩
      else h.registered? d := by
  cases d with
  | mk index =>
      simp only [registered?, withClass, Array.getElem?_push, nextClassId, ClassId.mk.injEq,
        classCount]

@[simp]
theorem classCount_withClass (name : String) :
    (h.withClass name).classCount = h.classCount + 1 := by
  simp [withClass, classCount]

/-- No class has the identity that the next class takes. -/
theorem registered?_nextClassId : h.registered? h.nextClassId = none :=
  registered?_eq_none_iff.mpr (Nat.le_refl _)

@[simp]
theorem superclass?_withClass (name : String) :
    (h.withClass name).superclass? d = h.superclass? d := by
  rw [superclass?, superclass?, registered?_withClass]
  by_cases hnext : d = h.nextClassId
  · rw [if_pos hnext, hnext, registered?_nextClassId]
    rfl
  · rw [if_neg hnext]

@[simp]
theorem interfaces_withClass (name : String) :
    (h.withClass name).interfaces d = h.interfaces d := by
  rw [interfaces, interfaces, registered?_withClass]
  by_cases hnext : d = h.nextClassId
  · rw [if_pos hnext, hnext, registered?_nextClassId]
    rfl
  · rw [if_neg hnext]

theorem class?_withClass {name : String} :
    (h.withClass name).class? d =
      if d = h.nextClassId then some ⟨h.nextClassId, name, []⟩ else h.class? d := by
  rw [class?, registered?_withClass]
  split
  · rfl
  · rfl

@[simp]
theorem method?_withClass (name : String) (m : MethodId) :
    (h.withClass name).method? m = h.method? m := rfl

@[simp]
theorem classCount_withSuperclass : (h.withSuperclass c s).classCount = h.classCount :=
  classCount_modifyEntry h c _

theorem superclass?_withSuperclass (hc : c.index < h.classCount) :
    (h.withSuperclass c s).superclass? d = if c = d then some s else h.superclass? d := by
  rw [superclass?, withSuperclass, registered?_modifyEntry]
  by_cases hcd : c = d
  · obtain ⟨entry, hentry⟩ := Option.isSome_iff_exists.mp (registered?_isSome_iff.mpr hc)
    rw [if_pos hcd, if_pos hcd, ← hcd, hentry]
    rfl
  · rw [if_neg hcd, if_neg hcd]
    rfl

@[simp]
theorem interfaces_withSuperclass : (h.withSuperclass c s).interfaces d = h.interfaces d :=
  interfaces_modifyEntry fun _ => rfl

@[simp]
theorem class?_withSuperclass : (h.withSuperclass c s).class? d = h.class? d :=
  map_registered?_modifyEntry ClassEntry.decl fun _ => rfl

@[simp]
theorem classCount_withInterface : (h.withInterface c s).classCount = h.classCount :=
  classCount_modifyEntry h c _

@[simp]
theorem superclass?_withInterface : (h.withInterface c s).superclass? d = h.superclass? d :=
  superclass?_modifyEntry fun _ => rfl

theorem interfaces_withInterface (hc : c.index < h.classCount) :
    (h.withInterface c s).interfaces d =
      if c = d then h.interfaces d ++ [s] else h.interfaces d := by
  rw [interfaces, withInterface, registered?_modifyEntry]
  by_cases hcd : c = d
  · obtain ⟨entry, hentry⟩ := Option.isSome_iff_exists.mp (registered?_isSome_iff.mpr hc)
    rw [if_pos hcd, if_pos hcd, ← hcd, interfaces, hentry]
    rfl
  · rw [if_neg hcd, if_neg hcd]
    rfl

@[simp]
theorem class?_withInterface : (h.withInterface c s).class? d = h.class? d :=
  map_registered?_modifyEntry ClassEntry.decl fun _ => rfl

@[simp]
theorem classCount_appendMember (member : Member) :
    (h.appendMember c member).classCount = h.classCount :=
  classCount_modifyEntry h c _

@[simp]
theorem superclass?_appendMember (member : Member) :
    (h.appendMember c member).superclass? d = h.superclass? d :=
  superclass?_modifyEntry fun _ => rfl

@[simp]
theorem interfaces_appendMember (member : Member) :
    (h.appendMember c member).interfaces d = h.interfaces d :=
  interfaces_modifyEntry fun _ => rfl

theorem class?_appendMember (member : Member) :
    (h.appendMember c member).class? d =
      if c = d then (h.class? d).map fun decl => { decl with members := decl.members ++ [member] }
      else h.class? d := by
  rw [class?, appendMember, registered?_modifyEntry]
  by_cases hcd : c = d
  · rw [if_pos hcd, if_pos hcd, class?, Option.map_map, Option.map_map]
    rfl
  · rw [if_neg hcd, if_neg hcd]
    rfl

theorem class?_appendMember_self {decl : ClassDecl} (hdecl : h.class? c = some decl)
    (member : Member) :
    (h.appendMember c member).class? c =
      some { decl with members := decl.members ++ [member] } := by
  rw [class?_appendMember, if_pos rfl, hdecl, Option.map_some]

@[simp]
theorem classCount_withMethod (spec : MethodSpec) :
    (h.withMethod c spec).classCount = h.classCount :=
  classCount_appendMember (.method h.nextMethodId)

@[simp]
theorem superclass?_withMethod (spec : MethodSpec) :
    (h.withMethod c spec).superclass? d = h.superclass? d :=
  superclass?_appendMember (.method h.nextMethodId)

@[simp]
theorem interfaces_withMethod (spec : MethodSpec) :
    (h.withMethod c spec).interfaces d = h.interfaces d :=
  interfaces_appendMember (.method h.nextMethodId)

theorem class?_withMethod (spec : MethodSpec) :
    (h.withMethod c spec).class? d =
      if c = d then
        (h.class? d).map fun decl =>
          { decl with members := decl.members ++ [.method h.nextMethodId] }
      else h.class? d :=
  class?_appendMember (.method h.nextMethodId)

theorem method?_withMethod (spec : MethodSpec) (m : MethodId) :
    (h.withMethod c spec).method? m =
      if m = h.nextMethodId then some ⟨spec, h.nextMethodId, c⟩ else h.method? m := by
  cases m with
  | mk index =>
      simp only [method?, withMethod, Array.getElem?_push, nextMethodId, MethodId.mk.injEq,
        methodCount]

/-! ## Runs -/

theorem after_append_singleton (ops : List Operation) (op : Operation) :
    after (ops ++ [op]) = op.perform (after ops) := by
  simp [after, List.foldl_append]

theorem perform_of_apply_eq_ok {op : Operation} (happly : op.apply h = .ok h') :
    op.perform h = h' := by
  simp [Operation.perform, happly]

theorem perform_of_apply_eq_error {op : Operation} {refusal : BuildError}
    (hrefused : op.apply h = .error refusal) : op.perform h = h := by
  simp [Operation.perform, hrefused]

/-- The hierarchy after a sequence of further steps; refused ones leave it as it is. -/
def performAll (h : Hierarchy) (ops : List Operation) : Hierarchy :=
  ops.foldl (fun h op => op.perform h) h

theorem performAll_nil : h.performAll [] = h := rfl

theorem performAll_cons {op : Operation} {ops : List Operation} :
    h.performAll (op :: ops) = (op.perform h).performAll ops := rfl

/-- What every accepted step keeps is kept by every run. -/
theorem performAll_induction {P : Hierarchy → Prop}
    (hstep : ∀ h op h', P h → Operation.apply op h = .ok h' → P h') (hstart : P h)
    (ops : List Operation) : P (h.performAll ops) := by
  induction ops generalizing h with
  | nil => exact hstart
  | cons op rest ih =>
      rw [performAll_cons]
      refine ih ?_
      cases happly : op.apply h with
      | ok next => exact perform_of_apply_eq_ok happly ▸ hstep h op next hstart happly
      -- A refused step leaves the hierarchy as it was.
      | error refusal => exact (perform_of_apply_eq_error happly).symm ▸ hstart

/-! ## Reachable hierarchies -/

theorem reachable_empty : empty.Reachable := ⟨[], rfl⟩

/-- An accepted step leads from a reachable hierarchy to a reachable one. -/
theorem Reachable.apply (hreach : h.Reachable) {op : Operation} (happly : op.apply h = .ok h') :
    h'.Reachable := by
  obtain ⟨ops, rfl⟩ := hreach
  exact ⟨ops ++ [op], by rw [after_append_singleton, perform_of_apply_eq_ok happly]⟩

theorem Reachable.performAll (hreach : h.Reachable) (ops : List Operation) :
    (h.performAll ops).Reachable :=
  performAll_induction (fun _ _ _ hreach happly => hreach.apply happly) hreach ops

/-- What holds of the empty hierarchy and is kept by every accepted step holds of every reachable
hierarchy. -/
theorem Reachable.induction {P : Hierarchy → Prop} (hempty : P empty)
    (hstep : ∀ h op h', h.Reachable → P h → Operation.apply op h = .ok h' → P h')
    (hreach : h.Reachable) : P h := by
  obtain ⟨ops, rfl⟩ := hreach
  -- The steps are taken from a reachable hierarchy, so that goes into what they keep.
  have hkept : ∀ h op h', h.Reachable ∧ P h → Operation.apply op h = .ok h' →
      h'.Reachable ∧ P h' :=
    fun h op h' hboth happly => ⟨hboth.1.apply happly, hstep h op h' hboth.1 hboth.2 happly⟩
  exact (performAll_induction (P := fun h => h.Reachable ∧ P h) hkept
    ⟨reachable_empty, hempty⟩ ops).2

end Hierarchy

end FieldContracts
