import FieldContracts.Class.Method
import FieldContracts.Json.Record
import FieldContracts.Json.Variant

/-!
# Classes as documents

How identities, fields, members, annotations, classes and methods are read and written.
-/

namespace FieldContracts

open Json

def ClassId.format : Format ClassId := Format.index.via ClassId.mk ClassId.index

def MethodId.format : Format MethodId := Format.index.via MethodId.mk MethodId.index

def FieldDecl.layout : Layout FieldDecl where
  typeName := "FieldDef"
  blank := ⟨"", false⟩
  slots := [
    .required "name" .text FieldDecl.name fun f name => { f with name },
    .required "is_static" .flag FieldDecl.isStatic fun f isStatic => { f with isStatic }]

/-- A member is written under the name of its sort. -/
def Member.format : Format Member where
  reader := Reader.variant [
    ("Field", .holding (FieldDecl.layout.reader.map .field)),
    ("Method", .holding (MethodId.format.reader.map .method))]
  write
    | .field decl => .obj [("Field", FieldDecl.layout.format.write decl)]
    | .method id => .obj [("Method", MethodId.format.write id)]

def ClassDecl.layout : Layout ClassDecl where
  typeName := "ClassDef"
  blank := ⟨⟨0⟩, "", []⟩
  slots := [
    .required "id" ClassId.format ClassDecl.id fun c id => { c with id },
    .required "name" .text ClassDecl.name fun c name => { c with name },
    .required "members" Member.format.list ClassDecl.members fun c members => { c with members }]

/-- An annotation lists nothing unless it says so. -/
def Annotation.layout : Layout Annotation where
  typeName := "Annotation"
  blank := ⟨"", []⟩
  slots := [
    .required "name" .text Annotation.name fun a name => { a with name },
    .defaulted "values" Format.text.list Annotation.values fun a values => { a with values }]

def MethodDecl.layout : Layout MethodDecl where
  typeName := "MethodDef"
  blank := { signature := ⟨"", []⟩, isStatic := false, annotations := [], id := ⟨0⟩, owner := ⟨0⟩ }
  slots := [
    .required "id" MethodId.format MethodDecl.id fun m id => { m with id },
    .required "owner" ClassId.format MethodDecl.owner fun m owner => { m with owner },
    .required "name" .text (·.signature.name)
      fun m name => { m with signature := { m.signature with name } },
    .required "params" Format.text.list (·.signature.params)
      fun m params => { m with signature := { m.signature with params } },
    .required "is_static" .flag (·.isStatic) fun m isStatic => { m with isStatic },
    .required "annotations" Annotation.layout.format.list (·.annotations)
      fun m annotations => { m with annotations }]

end FieldContracts
