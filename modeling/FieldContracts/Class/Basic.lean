/-!
# Classes and their fields

Identities of classes and methods, fields, and the member list of one class in declaration order.
Supertypes are no part of a class declaration: they belong to the hierarchy.
-/

namespace FieldContracts

/-- The identity of a class: its place in the order of registration.  Documents hold identities as
32-bit words; a hierarchy leaves the bound `2 ^ 32` out and registers any number of classes. -/
structure ClassId where
  index : Nat
deriving DecidableEq, Repr, Inhabited

/-- The identity of a method: its place in the order of registration.  As for classes, the bound
`2 ^ 32` of the documents is left out. -/
structure MethodId where
  index : Nat
deriving DecidableEq, Repr, Inhabited

/-- How a report names a class of which only the identity is known. -/
def ClassId.label (c : ClassId) : String := s!"ClassId({c.index})"

/-- How a report names a method of which only the identity is known. -/
def MethodId.label (m : MethodId) : String := s!"MethodId({m.index})"

/-- A field; a static one belongs to the class and not to its instances. -/
structure FieldDecl where
  name : String
  isStatic : Bool
deriving DecidableEq, Repr, Inhabited

/-- A member of a class.  Methods are kept aside and listed by identity. -/
inductive Member where
  | field (decl : FieldDecl)
  | method (id : MethodId)
deriving DecidableEq, Repr

/-- A class with the members that it declares itself. -/
structure ClassDecl where
  id : ClassId
  name : String
  members : List Member
deriving DecidableEq, Repr

namespace Member

def field? : Member → Option FieldDecl
  | .field decl => some decl
  | .method _ => none

def methodId? : Member → Option MethodId
  | .field _ => none
  | .method id => some id

end Member

namespace ClassDecl

/-- The fields that the class declares itself, in order. -/
def fields (c : ClassDecl) : List FieldDecl := c.members.filterMap Member.field?

/-- The methods that the class declares itself, in order. -/
def methodIds (c : ClassDecl) : List MethodId := c.members.filterMap Member.methodId?

/-- The first field of this name that the class declares itself. -/
def field? (c : ClassDecl) (name : String) : Option FieldDecl :=
  c.fields.find? (·.name == name)

end ClassDecl

end FieldContracts
