import FieldContracts.Class.Basic
import FieldContracts.NameSet

/-!
# Methods and their annotations

An annotation is looked up by its simple name, also when it is written with a package in front.
Two methods have one signature when name and parameter types agree.
-/

namespace FieldContracts

/-- An annotation with the strings that it lists. -/
structure Annotation where
  name : String
  values : List String
deriving DecidableEq, Repr, Inhabited

/-- Whether the annotation is written as `simple`, bare or after a package and a dot. -/
def Annotation.isNamed (a : Annotation) (simple : String) : Bool :=
  a.name == simple || ('.' :: simple.toList).isSuffixOf a.name.toList

theorem Annotation.isNamed_iff {a : Annotation} {simple : String} :
    a.isNamed simple = true ↔
      a.name = simple ∨ '.' :: simple.toList <:+ a.name.toList := by
  unfold Annotation.isNamed
  simp

/-- The name of a method with the types of its parameters. -/
structure Signature where
  name : String
  params : List String
deriving DecidableEq, Repr, Inhabited

/-- The name followed by the parameter types in parentheses. -/
def Signature.text (s : Signature) : String :=
  let params := String.intercalate ", " s.params
  s!"{s.name}({params})"

/-- What a class says of a method that it declares. -/
structure MethodSpec where
  signature : Signature
  isStatic : Bool
  annotations : List Annotation
deriving DecidableEq, Repr, Inhabited

/-- What the first annotation with this simple name lists. -/
def MethodSpec.annotationValues (m : MethodSpec) (simple : String) : Option NameSet :=
  (m.annotations.find? (·.isNamed simple)).map fun a => NameSet.ofList a.values

/-- A method registered under an identity, with the class that declares it. -/
structure MethodDecl extends MethodSpec where
  id : MethodId
  owner : ClassId
deriving DecidableEq, Repr, Inhabited

end FieldContracts
