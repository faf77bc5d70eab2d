import FieldContracts.Class.Basic

/-!
# Why a building step is refused

One constructor for each cause, and the text of each in `BuildError.message`.
-/

namespace FieldContracts

/-- The reason for which a class, an edge, a field or a method is not added. -/
inductive BuildError where
  /-- The name is taken by another class. -/
  | duplicateClassName (name : String)
  /-- No class has this identity. -/
  | classNotFound (id : ClassId)
  /-- A description refers to a class that it does not declare. -/
  | unknownClassName (name : String) (referencedBy : String)
  /-- The class extends another class already. -/
  | superclassAlreadySet (className : String)
  /-- The edge would put the class above itself. -/
  | inheritanceCycle (className : String) (supertype : String)
  /-- The class declares a field of this name already. -/
  | duplicateField (className : String) (field : String)
deriving DecidableEq, Repr

def BuildError.message : BuildError → String
  | .duplicateClassName name => s!"duplicate class name: '{name}'"
  | .classNotFound id => s!"class not found: {id.label}"
  | .unknownClassName name referencedBy =>
      s!"class '{referencedBy}' refers to unknown class '{name}'"
  | .superclassAlreadySet className => s!"class {className} already extends another class"
  | .inheritanceCycle className supertype =>
      s!"inheritance cycle: '{className}' cannot inherit from '{supertype}'"
  | .duplicateField className field => s!"duplicate field '{field}' in class '{className}'"

end FieldContracts
