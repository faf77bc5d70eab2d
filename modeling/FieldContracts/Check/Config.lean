import FieldContracts.Contract.Basic

/-!
# Checker configuration

A configuration names the annotations that declare contracts and says what happens to a method
whose declaration is malformed.  `Config.rules` gives the rules that it puts in force.
-/

namespace FieldContracts

/-- What the comparison with the overridden method does for a malformed declaration. -/
inductive InvalidPolicy where
  /-- The method is not compared. -/
  | skipInheritance
  /-- The method is compared as if it declared nothing. -/
  | treatAsEmpty
deriving DecidableEq, Repr

/-- One kind of contract, with the simple name of the annotation that declares it. -/
structure Rule where
  kind : ContractKind
  simpleName : String
  policy : InvalidPolicy
deriving DecidableEq, Repr

/-- The name of the annotation for contracts of this kind unless a configuration gives another. -/
def ContractKind.standardName : ContractKind → String
  | .precondition => "RequiresNonNull"
  | .postcondition => "EnsuresNonNull"

structure Config where
  precondition : String
  postcondition : String
  policy : InvalidPolicy
deriving DecidableEq, Repr

namespace Config

def standard : Config where
  precondition := ContractKind.precondition.standardName
  postcondition := ContractKind.postcondition.standardName
  policy := .skipInheritance

/-- The precondition is checked before the postcondition. -/
def rules (config : Config) : List Rule :=
  [⟨.precondition, config.precondition, config.policy⟩,
    ⟨.postcondition, config.postcondition, config.policy⟩]

end Config

end FieldContracts
