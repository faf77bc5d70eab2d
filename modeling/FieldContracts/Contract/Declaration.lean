import FieldContracts.Contract.Basic
import FieldContracts.Hierarchy.FieldLookup

/-!
# Declarations and their faults

A declaration lists entries, and `validate` gives the bare names of their fields.  An entry may
name any field that is found along the superclasses; a static field is named as it is declared and
never after `this.`.  Of several faulty entries the first is reported.
-/

namespace FieldContracts

/-- What is wrong with a declaration. -/
inductive DeclarationError where
  /-- It lists no entry. -/
  | emptyContract
  /-- It names a static field after `this.`. -/
  | staticViaReceiver (field : String)
  /-- It holds a path that names no field of the receiver. -/
  | unsupportedPath (path : String)
  /-- It names a field that neither the class nor its superclasses declare. -/
  | fieldNotFound (field : String) (className : String)
deriving DecidableEq, Repr

/-- The report on a fault of a declaration under the annotation of this simple name. -/
def DeclarationError.message (simpleName : String) : DeclarationError → String
  | .emptyContract =>
      s!"empty @{simpleName} is the default contract for every method, please remove it"
  | .staticViaReceiver field => s!"cannot refer to static field {field} using this."
  | .unsupportedPath path =>
      s!"currently @{simpleName} supports only class fields of the method receiver: " ++
        s!"{path} is not supported"
  | .fieldNotFound field className =>
      s!"for @{simpleName} annotation, cannot find instance field {field} in class {className}"

namespace Hierarchy

/-- Whether the nearest declaration of the field is static. -/
def resolvesToStatic (h : Hierarchy) (c : ClassId) (name : String) : Bool :=
  (h.resolveField c name).any (·.field.isStatic)

/-- The field of class `c` that an entry refers to, bare or after `this.`. -/
def plainField (h : Hierarchy) (c : ClassId) (entry : String) :
    Except DeclarationError String :=
  match FieldReference.ofEntry? entry with
  | none => .error (.unsupportedPath entry)
  | some reference =>
      if (h.resolveField c reference.name).isSome then
        .ok reference.name
      else
        .error (.fieldNotFound reference.name ((h.className? c).getD c.label))

/-- The field that one entry of a declaration in class `c` names. -/
def entryField (h : Hierarchy) (c : ClassId) (entry : String) :
    Except DeclarationError String :=
  match (afterThis? entry).filter (h.resolvesToStatic c) with
  | some field => .error (.staticViaReceiver field)
  | none => if h.resolvesToStatic c entry then .ok entry else h.plainField c entry

/-- The fields that a declaration in class `c` names, or its first fault. -/
def validate (h : Hierarchy) (c : ClassId) (raw : NameSet) : Except DeclarationError NameSet :=
  if raw.isEmpty then
    .error .emptyContract
  else
    (raw.toList.mapM (h.entryField c)).map NameSet.ofList

end Hierarchy

end FieldContracts
