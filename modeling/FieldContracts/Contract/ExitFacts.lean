import FieldContracts.Contract.Basic
import FieldContracts.Class.Basic

/-!
# What is known at the exits of a method

`ExitFacts` gives for a method the fields that are non-null at each of its exits, if anything is
known of it; a `FactTable` lists such facts.  A postcondition must be covered by what is known; a
precondition needs no support in the body.
-/

namespace FieldContracts

/-- The fields known to be non-null at every exit of a method, if anything is known. -/
abbrev ExitFacts := MethodId → Option NameSet

/-- Nothing is known of any method. -/
def ExitFacts.unknown : ExitFacts := fun _ => none

/-- Facts about finitely many methods, each listed once. -/
structure FactTable where
  entries : List (MethodId × NameSet)
deriving DecidableEq, Repr

namespace FactTable

def empty : FactTable := ⟨[]⟩

instance : Inhabited FactTable := ⟨empty⟩

/-- The facts that the table states. -/
def facts (t : FactTable) : ExitFacts := fun m => t.entries.lookup m

/-- States the facts about one method anew. -/
def insert (t : FactTable) (m : MethodId) (fields : NameSet) : FactTable :=
  ⟨(m, fields) :: t.entries.filter (·.1 != m)⟩

/-- The number of methods of which something is known. -/
def size (t : FactTable) : Nat := t.entries.length

@[simp]
theorem facts_empty (m : MethodId) : empty.facts m = none := rfl

theorem facts_insert_self (t : FactTable) (m : MethodId) (fields : NameSet) :
    (t.insert m fields).facts m = some fields := by
  simp [facts, insert]

theorem facts_insert_of_ne (t : FactTable) {m other : MethodId} (h : other ≠ m)
    (fields : NameSet) : (t.insert m fields).facts other = t.facts other := by
  have hfilter : ∀ entries : List (MethodId × NameSet),
      (entries.filter (·.1 != m)).lookup other = entries.lookup other := by
    intro entries
    induction entries with
    | nil => rfl
    | cons entry rest ih =>
      obtain ⟨key, value⟩ := entry
      by_cases hkey : key = m
      · subst hkey
        have hne : (other == key) = false := by simpa using h
        simp [List.lookup_cons, hne, ih]
      · simp [hkey, List.lookup_cons, ih]
  have hne : (other == m) = false := by simpa using h
  simp [facts, insert, List.lookup_cons, hne, hfilter]

end FactTable

/-- A postcondition with the part of it that the method's body leaves open. -/
structure Unensured where
  declared : NameSet
  missing : NameSet
deriving DecidableEq, Repr

/-- The report on an uncovered postcondition of the method so named. -/
def Unensured.message (simpleName method : String) (u : Unensured) : String :=
  let declared := u.declared.listed
  let missing := u.missing.listed
  s!"method {method} is annotated with @{simpleName}, so fields [{declared}] must be non-null " ++
    s!"at every exit point, but its body does not guarantee this for [{missing}]"

/-- The fields of a postcondition that the known facts do not cover, if there are any. -/
def Contract.unensured? (contract : Contract) (known : Option NameSet) : Option Unensured :=
  match contract.kind, known with
  | .postcondition, some ensured =>
      let missing := contract.fields.diff ensured
      if missing.isEmpty then none else some ⟨contract.fields, missing⟩
  | _, _ => none

/-- A postcondition is covered if every field of it is known to be non-null at the exits. -/
theorem Contract.unensured?_eq_none_iff {contract : Contract} {ensured : NameSet}
    (hkind : contract.kind = .postcondition) :
    contract.unensured? (some ensured) = none ↔ ∀ field ∈ contract.fields, field ∈ ensured := by
  simp [unensured?, hkind, NameSet.isEmpty_diff_iff]

end FieldContracts
