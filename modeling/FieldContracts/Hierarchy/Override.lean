import FieldContracts.Hierarchy.Supertypes

/-!
# Overridden methods

A method overrides the first method of its signature that is met on the way up from its class.
Static methods neither override nor are overridden.
-/

namespace FieldContracts

namespace Hierarchy

/-- The first method that the class declares itself, not static and of this signature. -/
def overridable? (h : Hierarchy) (signature : Signature) (c : ClassId) : Option MethodId :=
  (h.declaredMethods c).find? fun m =>
    (h.method? m).any fun decl => !decl.isStatic && decl.signature == signature

/-- The method that `m` overrides: the first of its signature in the classes above its own. -/
def closestOverridden? (h : Hierarchy) (m : MethodId) : Option MethodId :=
  (h.method? m).bind fun decl =>
    if decl.isStatic then none
    else (h.above decl.owner).findSome? (h.overridable? decl.signature)

/-- The class and the name of a method with its parameters, joined by a dot. -/
def qualifiedName (h : Hierarchy) (m : MethodId) : String :=
  match h.method? m with
  | some decl =>
      let owner := (h.className? decl.owner).getD "<unknown>"
      s!"{owner}.{decl.signature.text}"
  | none => m.label

end Hierarchy

end FieldContracts
