import FieldContracts.Check.Config
import FieldContracts.Check.Diagnostic
import FieldContracts.Class.Document

/-!
# Configurations and diagnostics as documents

How configurations and diagnostics are read and written.
-/

namespace FieldContracts

open Json

def ContractKind.format : Format ContractKind :=
  .names [.precondition, .postcondition] fun
    | .precondition => "Precondition"
    | .postcondition => "Postcondition"

def InvalidPolicy.format : Format InvalidPolicy :=
  .names [.skipInheritance, .treatAsEmpty] fun
    | .skipInheritance => "skip_inheritance"
    | .treatAsEmpty => "treat_as_empty"

/-- A configuration keeps the standard setting of each field that is absent. -/
def Config.layout : Layout Config where
  typeName := "CheckConfig"
  blank := Config.standard
  slots := [
    .defaulted "precondition_annotation" .text Config.precondition
      fun c precondition => { c with precondition },
    .defaulted "postcondition_annotation" .text Config.postcondition
      fun c postcondition => { c with postcondition },
    .defaulted "invalid_declaration_policy" InvalidPolicy.format Config.policy
      fun c policy => { c with policy }]

def DiagnosticKind.format : Format DiagnosticKind :=
  .names [.annotationValueInvalid, .wrongOverridePrecondition, .wrongOverridePostcondition]
    DiagnosticKind.tag

def Location.layout : Layout Location where
  typeName := "DiagnosticLocation"
  blank := ⟨⟨0⟩, ""⟩
  slots := [
    .required "method" MethodId.format Location.method fun l method => { l with method },
    .required "qualified_name" .text Location.qualifiedName
      fun l qualifiedName => { l with qualifiedName }]

def Diagnostic.layout : Layout Diagnostic where
  typeName := "Diagnostic"
  blank := ⟨.annotationValueInvalid, "", Location.layout.blank⟩
  slots := [
    .required "kind" DiagnosticKind.format Diagnostic.kind fun d kind => { d with kind },
    .required "message" .text Diagnostic.message fun d message => { d with message },
    .required "location" Location.layout.format Diagnostic.location
      fun d location => { d with location }]

end FieldContracts
