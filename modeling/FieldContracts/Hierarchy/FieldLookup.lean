import FieldContracts.Hierarchy.Basic

/-!
# Looking up a field

A field is looked up along the superclasses, nearest first; interfaces declare no instance state
and are not searched.  No chain of superclasses without repetition is longer than the number of
classes, so `superclassChain` stops there.
-/

namespace FieldContracts

/-- A field with the class that declares it. -/
structure ResolvedField where
  owner : ClassId
  field : FieldDecl
deriving DecidableEq, Repr

namespace Hierarchy

/-- The first classes of the chain of superclasses that starts at `c`, at most as many as `bound`. -/
def superclassesUpTo (h : Hierarchy) : (bound : Nat) → (c : ClassId) → List ClassId
  | 0, _ => []
  | bound + 1, c =>
      c :: match h.superclass? c with
        | none => []
        | some s => h.superclassesUpTo bound s

/-- The class, its superclass, the superclass of that one, and so on. -/
def superclassChain (h : Hierarchy) (c : ClassId) : List ClassId :=
  h.superclassesUpTo (h.classCount + 1) c

/-- The nearest declaration of a field along the superclasses. -/
def resolveField (h : Hierarchy) (c : ClassId) (name : String) : Option ResolvedField :=
  (h.superclassChain c).findSome? fun owner =>
    (h.declaredField? owner name).map (ResolvedField.mk owner)

end Hierarchy

end FieldContracts
