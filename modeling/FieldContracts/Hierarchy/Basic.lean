import FieldContracts.Class.Method

/-!
# The class hierarchy

A `Hierarchy` holds the registered classes, each with its superclass and its interfaces, and the
registered methods.  An identity is an index, so that looking one up never searches; names are
looked up by search.
-/

namespace FieldContracts

/-- A registered class and its direct supertypes. -/
structure ClassEntry where
  decl : ClassDecl
  superclass : Option ClassId
  interfaces : List ClassId
deriving DecidableEq, Repr

/-- The registered classes and methods, in order of registration. -/
structure Hierarchy where
  classes : Array ClassEntry
  methods : Array MethodDecl
deriving DecidableEq, Repr

namespace Hierarchy

/-- Nothing is registered. -/
def empty : Hierarchy := ⟨#[], #[]⟩

instance : Inhabited Hierarchy := ⟨empty⟩

def classCount (h : Hierarchy) : Nat := h.classes.size

def methodCount (h : Hierarchy) : Nat := h.methods.size

/-- The identity that the next registered class takes. -/
def nextClassId (h : Hierarchy) : ClassId := ⟨h.classCount⟩

/-- The identity that the next registered method takes. -/
def nextMethodId (h : Hierarchy) : MethodId := ⟨h.methodCount⟩

def classIds (h : Hierarchy) : List ClassId := (List.range h.classCount).map ClassId.mk

def methodIds (h : Hierarchy) : List MethodId := (List.range h.methodCount).map MethodId.mk

@[simp]
theorem mem_classIds {h : Hierarchy} {c : ClassId} : c ∈ h.classIds ↔ c.index < h.classCount := by
  constructor
  · intro hc
    obtain ⟨i, hi, rfl⟩ := List.mem_map.mp hc
    exact List.mem_range.mp hi
  · exact fun hc => List.mem_map.mpr ⟨c.index, List.mem_range.mpr hc, rfl⟩

def registered? (h : Hierarchy) (c : ClassId) : Option ClassEntry := h.classes[c.index]?

def class? (h : Hierarchy) (c : ClassId) : Option ClassDecl := (h.registered? c).map (·.decl)

def className? (h : Hierarchy) (c : ClassId) : Option String := (h.class? c).map (·.name)

def method? (h : Hierarchy) (m : MethodId) : Option MethodDecl := h.methods[m.index]?

/-- The class registered under this name. -/
def classId? (h : Hierarchy) (name : String) : Option ClassId :=
  h.classIds.find? fun c => h.className? c == some name

def superclass? (h : Hierarchy) (c : ClassId) : Option ClassId :=
  (h.registered? c).bind (·.superclass)

/-- The direct interfaces in declaration order, repetitions included. -/
def interfaces (h : Hierarchy) (c : ClassId) : List ClassId :=
  ((h.registered? c).map (·.interfaces)).getD []

/-- The superclass, if there is one, and then the interfaces. -/
def directSupertypes (h : Hierarchy) (c : ClassId) : List ClassId :=
  (h.superclass? c).toList ++ h.interfaces c

/-- The members that the class declares itself; an unknown class has none. -/
def members (h : Hierarchy) (c : ClassId) : List Member :=
  ((h.class? c).map (·.members)).getD []

/-- The methods that the class declares itself; an unknown class has none. -/
def declaredMethods (h : Hierarchy) (c : ClassId) : List MethodId :=
  ((h.class? c).map (·.methodIds)).getD []

/-- The field of this name that the class declares itself. -/
def declaredField? (h : Hierarchy) (c : ClassId) (name : String) : Option FieldDecl :=
  (h.class? c).bind (·.field? name)

/-- What the first annotation of the method with this simple name lists. -/
def annotationValues (h : Hierarchy) (m : MethodId) (simple : String) : Option NameSet :=
  (h.method? m).bind (·.annotationValues simple)

end Hierarchy

end FieldContracts
