import FieldContracts.Class.Document
import FieldContracts.Program.Building

/-!
# Program descriptions as documents

How described programs are read and written.  A hierarchy is written as its description, and reading
one builds what the description says.
-/

namespace FieldContracts

open Json

/-- A described field, which is not static unless it says so. -/
def FieldDecl.describedLayout : Layout FieldDecl where
  typeName := "FieldSource"
  blank := ⟨"", false⟩
  slots := [
    .required "name" .text FieldDecl.name fun f name => { f with name },
    .defaulted "static" .flag FieldDecl.isStatic fun f isStatic => { f with isStatic }]

def MethodDesc.layout : Layout MethodDesc where
  typeName := "MethodSource"
  blank := { signature := ⟨"", []⟩, isStatic := false, annotations := [], nonNullAtExit := none }
  slots := [
    .required "name" .text (·.signature.name)
      fun m name => { m with signature := { m.signature with name } },
    .defaulted "params" Format.text.list (·.signature.params)
      fun m params => { m with signature := { m.signature with params } },
    .defaulted "static" .flag (·.isStatic) fun m isStatic => { m with isStatic },
    .defaulted "annotations" Annotation.layout.format.list (·.annotations)
      fun m annotations => { m with annotations },
    .optional "non_null_at_exit" Format.text.list (·.nonNullAtExit)
      fun m nonNullAtExit => { m with nonNullAtExit }]

def ClassDesc.layout : Layout ClassDesc where
  typeName := "ClassSource"
  blank := ⟨"", none, [], [], []⟩
  slots := [
    .required "name" .text (·.name) fun c name => { c with name },
    .optional "superclass" .text (·.superclass) fun c superclass => { c with superclass },
    .defaulted "interfaces" Format.text.list (·.interfaces)
      fun c interfaces => { c with interfaces },
    .defaulted "fields" FieldDecl.describedLayout.format.list (·.fields)
      fun c fields => { c with fields },
    .defaulted "methods" MethodDesc.layout.format.list (·.methods)
      fun c methods => { c with methods }]

def Program.layout : Layout Program where
  typeName := "ProgramSource"
  blank := ⟨[]⟩
  slots := [
    .defaulted "classes" ClassDesc.layout.format.list (·.classes) fun _ classes => ⟨classes⟩]

/-- Why a document is not read as a hierarchy. -/
inductive HierarchyReadError where
  | read (error : ReadError)
  | build (error : BuildError)

/-- Builds the hierarchy that a document describes.  A description that cannot be built is reported
before anything that follows it. -/
def Hierarchy.decode (document : String) : Except HierarchyReadError Hierarchy :=
  match Program.layout.reader.run document.toList with
  | .error e => .error (.read e)
  | .ok (p, rest) =>
      match ofProgram p with
      | .error e => .error (.build e)
      | .ok h =>
          match skipBlanks rest with
          | [] => .ok h
          | _ => .error (.read .malformed)

/-- Writes the description of a hierarchy. -/
def Hierarchy.encode (h : Hierarchy) : String := Program.layout.format.encode h.toProgram

end FieldContracts
