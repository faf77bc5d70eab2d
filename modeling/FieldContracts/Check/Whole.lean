import FieldContracts.Check.Method

/-!
# Checking a whole hierarchy

Every declared method is checked once under each rule: classes in order of registration, methods
in order of declaration, the precondition before the postcondition.
-/

namespace FieldContracts

namespace Config

/-- What the rules of the configuration report of one method. -/
def checkMethod (config : Config) (h : Hierarchy) (facts : ExitFacts) (m : MethodId) :
    List Diagnostic :=
  config.rules.flatMap fun rule => (rule.check h facts m).diagnostics

/-- What the rules of the configuration report of the methods of one class. -/
def checkClass (config : Config) (h : Hierarchy) (facts : ExitFacts) (c : ClassId) :
    List Diagnostic :=
  (h.declaredMethods c).flatMap (config.checkMethod h facts)

/-- What the rules of the configuration report of all methods. -/
def checkAll (config : Config) (h : Hierarchy) (facts : ExitFacts) : List Diagnostic :=
  h.classIds.flatMap (config.checkClass h facts)

end Config

end FieldContracts
