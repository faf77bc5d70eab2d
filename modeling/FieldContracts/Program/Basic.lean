import FieldContracts.Class.Method

/-!
# Descriptions of programs

A description lists classes by name, in any order, each with what it extends, implements and
declares.
-/

namespace FieldContracts

/-- A described method, with the fields that its body leaves non-null, if that is known. -/
structure MethodDesc extends MethodSpec where
  nonNullAtExit : Option (List String)
deriving DecidableEq, Repr, Inhabited

/-- A described class; other classes are referred to by name. -/
structure ClassDesc where
  name : String
  superclass : Option String
  interfaces : List String
  fields : List FieldDecl
  methods : List MethodDesc
deriving DecidableEq, Repr, Inhabited

/-- A described program. -/
structure Program where
  classes : List ClassDesc
deriving DecidableEq, Repr, Inhabited

end FieldContracts
