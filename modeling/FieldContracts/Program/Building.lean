import FieldContracts.Contract.ExitFacts
import FieldContracts.Hierarchy.Building
import FieldContracts.Program.Basic

/-!
# From descriptions to hierarchies and back

All classes are registered before any of them is filled in, so a class may refer to a later one.
`Hierarchy.ofProgram` builds the hierarchy of a description, `FactTable.ofProgram` takes the exit
facts from it, and `Hierarchy.toProgram` describes a hierarchy, fields before methods.
-/

namespace FieldContracts

namespace Hierarchy

/-- The class that `referencedBy` refers to by name. -/
def resolveClassName (h : Hierarchy) (name referencedBy : String) :
    Except BuildError ClassId :=
  match h.classId? name with
  | some c => .ok c
  | none => .error (.unknownClassName name referencedBy)

/-- Registers the described classes, all of them still empty. -/
def registerClasses (classes : List ClassDesc) : Except BuildError Hierarchy :=
  classes.foldlM (fun h desc => h.addClass desc.name) empty

/-- Puts the class below the superclass that its description names. -/
def extendDescribed (h : Hierarchy) (c : ClassId) (desc : ClassDesc) :
    Except BuildError Hierarchy :=
  match desc.superclass with
  | none => .ok h
  | some name => do
      let s ← h.resolveClassName name desc.name
      h.setSuperclass c s

/-- Puts the class below one interface that its description names. -/
def implementDescribed (h : Hierarchy) (c : ClassId) (desc : ClassDesc) (name : String) :
    Except BuildError Hierarchy := do
  let i ← h.resolveClassName name desc.name
  h.addInterface c i

/-- Gives a registered class the supertypes and members of its description. -/
def fillClass (h : Hierarchy) (desc : ClassDesc) : Except BuildError Hierarchy := do
  let c ← h.resolveClassName desc.name desc.name
  let h ← h.extendDescribed c desc
  let h ← desc.interfaces.foldlM (fun h name => h.implementDescribed c desc name) h
  let h ← desc.fields.foldlM (fun h field => h.addField c field) h
  desc.methods.foldlM (fun h method => h.addMethod c method.toMethodSpec) h

/-- The hierarchy that a program describes. -/
def ofProgram (p : Program) : Except BuildError Hierarchy := do
  -- Names may refer forward, so every class is known before the first edge is added.
  let h ← registerClasses p.classes
  p.classes.foldlM fillClass h

/-- The names of those of the classes that are registered. -/
def classNames (h : Hierarchy) (cs : List ClassId) : List String := cs.filterMap h.className?

/-- Registered methods, as a description lists them. -/
def describeMethods (h : Hierarchy) (ms : List MethodId) : List MethodDesc :=
  ms.filterMap fun m =>
    (h.method? m).map fun decl => ⟨decl.toMethodSpec, none⟩

/-- The description of one registered class. -/
def describeClass (h : Hierarchy) (entry : ClassEntry) : ClassDesc where
  name := entry.decl.name
  superclass := entry.superclass.bind h.className?
  interfaces := h.classNames entry.interfaces
  fields := entry.decl.fields
  methods := h.describeMethods entry.decl.methodIds

/-- The description of the hierarchy, without exit facts. -/
def toProgram (h : Hierarchy) : Program := ⟨h.classes.toList.map h.describeClass⟩

end Hierarchy

namespace FactTable

/-- Takes what the description of a class says of its methods' exits; the methods are paired with
those that the class of this name declares. -/
def insertClass (h : Hierarchy) (t : FactTable) (desc : ClassDesc) : FactTable :=
  match h.classId? desc.name with
  | none => t
  | some c =>
      ((h.declaredMethods c).zip desc.methods).foldl
        (fun t (m, method) =>
          match method.nonNullAtExit with
          | some fields => t.insert m (NameSet.ofList fields)
          | none => t) t

/-- The exit facts that a program states about the methods of a hierarchy. -/
def ofProgram (p : Program) (h : Hierarchy) : FactTable :=
  p.classes.foldl (insertClass h) empty

end FactTable

end FieldContracts
