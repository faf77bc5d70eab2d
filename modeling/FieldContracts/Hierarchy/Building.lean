import FieldContracts.Hierarchy.Error
import FieldContracts.Hierarchy.Supertypes

/-!
# Building a hierarchy step by step

Each step either extends the hierarchy or names the reason for its refusal, and a refused step
changes nothing.  An edge is refused when the lower class is at or above the upper one, so no class
ever comes to lie above itself.
-/

namespace FieldContracts

namespace Hierarchy

/-- Registers a class under a name that no other class has. -/
def addClass (h : Hierarchy) (name : String) : Except BuildError Hierarchy :=
  if (h.classId? name).isSome then
    .error (.duplicateClassName name)
  else
    .ok { h with classes := h.classes.push ⟨⟨h.nextClassId, name, []⟩, none, []⟩ }

/-- Changes what is registered for one class. -/
def modifyEntry (h : Hierarchy) (c : ClassId) (change : ClassEntry → ClassEntry) : Hierarchy :=
  { h with classes := h.classes.modify c.index change }

@[simp]
theorem classCount_modifyEntry (h : Hierarchy) (c : ClassId) (change : ClassEntry → ClassEntry) :
    (h.modifyEntry c change).classCount = h.classCount := by
  simp [modifyEntry, classCount]

@[simp]
theorem method?_modifyEntry (h : Hierarchy) (c : ClassId) (change : ClassEntry → ClassEntry)
    (m : MethodId) : (h.modifyEntry c change).method? m = h.method? m := rfl

theorem registered?_modifyEntry (h : Hierarchy) (c d : ClassId) (change : ClassEntry → ClassEntry) :
    (h.modifyEntry c change).registered? d =
      if c = d then (h.registered? d).map change else h.registered? d := by
  cases c
  cases d
  simp [modifyEntry, registered?, Array.getElem?_modify]

/-- Why `c` may not be put below `s`: one of them is unknown, or `c` is at or above `s`. -/
def edgeRefusal? (h : Hierarchy) (c s : ClassId) : Option BuildError :=
  match h.className? c, h.className? s with
  | none, _ => some (.classNotFound c)
  | some _, none => some (.classNotFound s)
  | some className, some supertype =>
      if c ∈ h.upward s then some (.inheritanceCycle className supertype) else none

/-- Why `s` may not become the superclass of `c`: it has one, or the edge is refused. -/
def superclassRefusal? (h : Hierarchy) (c s : ClassId) : Option BuildError :=
  match (h.registered? c).filter (·.superclass.isSome) with
  | some entry => some (.superclassAlreadySet entry.decl.name)
  | none => h.edgeRefusal? c s

/-- Makes `s` the superclass of `c`. -/
def setSuperclass (h : Hierarchy) (c s : ClassId) : Except BuildError Hierarchy :=
  match h.superclassRefusal? c s with
  | some refusal => .error refusal
  | none => .ok (h.modifyEntry c fun entry => { entry with superclass := some s })

/-- Puts `i` after the interfaces of `c`, also when it is among them. -/
def addInterface (h : Hierarchy) (c i : ClassId) : Except BuildError Hierarchy :=
  match h.edgeRefusal? c i with
  | some refusal => .error refusal
  | none =>
      .ok (h.modifyEntry c fun entry => { entry with interfaces := entry.interfaces ++ [i] })

/-- Puts a member after those of the class. -/
def appendMember (h : Hierarchy) (c : ClassId) (member : Member) : Hierarchy :=
  h.modifyEntry c fun entry =>
    { entry with decl := { entry.decl with members := entry.decl.members ++ [member] } }

/-- Declares a field of a name that the class has not declared itself. -/
def addField (h : Hierarchy) (c : ClassId) (field : FieldDecl) : Except BuildError Hierarchy :=
  match h.class? c with
  | none => .error (.classNotFound c)
  | some decl =>
      if (decl.field? field.name).isSome then
        .error (.duplicateField decl.name field.name)
      else
        .ok (h.appendMember c (.field field))

/-- Declares a method; a class may declare one signature several times. -/
def addMethod (h : Hierarchy) (c : ClassId) (spec : MethodSpec) : Except BuildError Hierarchy :=
  match h.class? c with
  | none => .error (.classNotFound c)
  | some _ =>
      let extended := h.appendMember c (.method h.nextMethodId)
      .ok { extended with methods := h.methods.push ⟨spec, h.nextMethodId, c⟩ }

end Hierarchy

/-- One step of building a hierarchy. -/
inductive Operation where
  | addClass (name : String)
  | setSuperclass (c s : ClassId)
  | addInterface (c i : ClassId)
  | addField (c : ClassId) (field : FieldDecl)
  | addMethod (c : ClassId) (spec : MethodSpec)
deriving DecidableEq, Repr

namespace Operation

def apply : Operation → Hierarchy → Except BuildError Hierarchy
  | .addClass name, h => h.addClass name
  | .setSuperclass c s, h => h.setSuperclass c s
  | .addInterface c i, h => h.addInterface c i
  | .addField c field, h => h.addField c field
  | .addMethod c spec, h => h.addMethod c spec

/-- The hierarchy after the step; a refused step leaves it as it was. -/
def perform (op : Operation) (h : Hierarchy) : Hierarchy :=
  match op.apply h with
  | .ok next => next
  | .error _ => h

end Operation

namespace Hierarchy

/-- The hierarchy that a sequence of steps builds from nothing. -/
def after (ops : List Operation) : Hierarchy :=
  ops.foldl (fun h op => op.perform h) empty

/-- Some sequence of steps, refused ones included, builds the hierarchy. -/
def Reachable (h : Hierarchy) : Prop := ∃ ops, after ops = h

end Hierarchy

end FieldContracts
