import FieldContracts.Proofs.Check.Silence
import Mathlib

/-!
# The two readings of a declaration

The declaration of an overriding method is validated, that of an overridden method is cut at the
dots of its entries.  The first is `ownReading`, entry by entry.  The two part where an entry is the
name of a static field with a dot in it, as in `dotted_static_read_apart`, and
`validate_eq_trimReceivers_iff` says that they part nowhere else.
-/

namespace FieldContracts

/-- No dot is left in a last segment. -/
theorem dotless_lastSegment (path : String) : '.' ∉ (lastSegment path).toList := by
  intro hdot
  rw [lastSegment, String.toList_ofList, List.mem_reverse] at hdot
  simpa using List.mem_takeWhile_imp hdot

namespace Hierarchy

variable {h : Hierarchy} {c : ClassId} {raw fields : NameSet}

/-- The two readings of a valid declaration are the same exactly if no entry is the name of a static
field with a dot in it. -/
theorem eq_trimReceivers_iff (hwf : h.WellFormed) (hvalid : h.validate c raw = .ok fields) :
    fields = trimReceivers raw ↔ h.StaticEntriesDotless c raw := by
  constructor
  · rintro rfl entry hentry hstatic
    -- The entry is a field by itself, so it must be one of the last segments.
    have hmem : entry ∈ trimReceivers raw := mem_of_static_entry hwf hvalid hentry hstatic
    obtain ⟨other, -, rfl⟩ := List.mem_map.mp (NameSet.mem_ofList.mp hmem)
    exact dotless_lastSegment other
  · intro hdotless
    exact eq_trimReceivers_of_validate hwf hdotless hvalid

/-- A valid declaration is read entry by entry, static fields by the whole entry and others by what
follows the last dot.  Taken at its word it states the same fields, in the same order, exactly if no
entry is the name of a static field with a dot in it; then, and only then, a method that makes the
declaration has one and the same contract as an override and as an overridden method. -/
theorem validate_eq_trimReceivers_iff (hreach : h.Reachable)
    (hvalid : h.validate c raw = .ok fields) :
    fields = NameSet.ofList (raw.toList.map (h.ownReading c)) ∧
    (fields = trimReceivers raw ↔ h.StaticEntriesDotless c raw) ∧
    (∀ kind, Contract.declared kind fields = Contract.ofDeclaration kind (some raw) ↔
      h.StaticEntriesDotless c raw) ∧
    ∀ (rule : Rule) (facts : ExitFacts) (m : MethodId) (own : Contract),
      h.annotationValues m rule.simpleName = some raw →
      rule.ownContract h facts m c = .ok own →
        (own = rule.inheritedContract h m ↔ h.StaticEntriesDotless c raw) := by
  have hwf : h.WellFormed := hreach.wellFormed
  have hcontracts : ∀ kind, Contract.declared kind fields = Contract.ofDeclaration kind (some raw) ↔
      h.StaticEntriesDotless c raw := by
    intro kind
    rw [← eq_trimReceivers_iff hwf hvalid]
    simp [Contract.ofDeclaration, Contract.declared]
  refine ⟨eq_ownReading_of_validate hwf hvalid, eq_trimReceivers_iff hwf hvalid, hcontracts, ?_⟩
  intro rule facts m own hraw hown
  obtain rfl : own = Contract.declared rule.kind fields := by
    rcases Rule.ownContract_eq_ok_iff.mp hown with
      ⟨hnone, -⟩ | ⟨raw', fields', hraw', hvalid', rfl, -⟩
    · rw [hraw] at hnone
      exact absurd hnone (by simp)
    · obtain rfl := Option.some.inj (hraw.symm.trans hraw')
      rw [Except.ok.inj (hvalid.symm.trans hvalid')]
  rw [Rule.inheritedContract, hraw]
  exact hcontracts rule.kind

/-- A class with a static field whose name has a dot in it, and one without. -/
def dottedStatic : List Operation := [
  .addClass "Flags", .addField ⟨0⟩ ⟨"a.b", true⟩, .addField ⟨0⟩ ⟨"f", false⟩,
  .addField ⟨0⟩ ⟨"S", true⟩]

/-- The name of the static field is kept by validation, but it is cut when it is taken at its
word. -/
theorem dotted_static_read_apart :
    (after dottedStatic).Reachable ∧
      (after dottedStatic).validate ⟨0⟩ (NameSet.ofList ["a.b"]) = .ok (NameSet.ofList ["a.b"]) ∧
      trimReceivers (NameSet.ofList ["a.b"]) = NameSet.ofList ["b"] ∧
      NameSet.ofList ["a.b"] ≠ trimReceivers (NameSet.ofList ["a.b"]) := by
  refine ⟨⟨dottedStatic, rfl⟩, by cbv, by decide, by decide⟩

/-- The class of `dottedStatic` with two methods, of which `set` names the static field with a dot in
its name. -/
def flags : List Operation := dottedStatic ++ [
  .addMethod ⟨0⟩ ⟨⟨"clear", []⟩, false, [⟨"RequiresNonNull", ["this.f", "S", "f"]⟩]⟩,
  .addMethod ⟨0⟩ ⟨⟨"set", []⟩, false, [⟨"RequiresNonNull", ["a.b"]⟩]⟩]

/-- As an override and as an overridden method `clear` has one contract, and `set` has two. -/
theorem validate_eq_trimReceivers_iff_dottedStatic :
    ((after flags).validate ⟨0⟩ (NameSet.ofList ["this.f", "S", "f"]) =
        .ok (NameSet.ofList ["f", "S"]) ∧
      NameSet.ofList ["f", "S"] = trimReceivers (NameSet.ofList ["this.f", "S", "f"]) ∧
      (after flags).StaticEntriesDotless ⟨0⟩ (NameSet.ofList ["this.f", "S", "f"]) ∧
      Rule.requiresNonNull.ownContract (after flags) ExitFacts.unknown ⟨0⟩ ⟨0⟩ =
        .ok (Rule.requiresNonNull.inheritedContract (after flags) ⟨0⟩)) ∧
    (after flags).validate ⟨0⟩ (NameSet.ofList ["a.b"]) = .ok (NameSet.ofList ["a.b"]) ∧
      ¬ (after flags).StaticEntriesDotless ⟨0⟩ (NameSet.ofList ["a.b"]) ∧
      NameSet.ofList ["a.b"] ≠ trimReceivers (NameSet.ofList ["a.b"]) ∧
      (∀ kind, Contract.declared kind (NameSet.ofList ["a.b"]) ≠
        Contract.ofDeclaration kind (some (NameSet.ofList ["a.b"]))) ∧
      ∃ own, Rule.requiresNonNull.ownContract (after flags) ExitFacts.unknown ⟨1⟩ ⟨0⟩ = .ok own ∧
        own ≠ Rule.requiresNonNull.inheritedContract (after flags) ⟨1⟩ := by
  have hreach : (after flags).Reachable := ⟨flags, rfl⟩
  constructor
  · have hvalid : (after flags).validate ⟨0⟩ (NameSet.ofList ["this.f", "S", "f"]) =
        .ok (NameSet.ofList ["f", "S"]) := by cbv
    have hraw : (after flags).annotationValues ⟨0⟩ "RequiresNonNull" =
        some (NameSet.ofList ["this.f", "S", "f"]) := by cbv
    have hown : Rule.requiresNonNull.ownContract (after flags) ExitFacts.unknown ⟨0⟩ ⟨0⟩ =
        .ok (Contract.declared .precondition (NameSet.ofList ["f", "S"])) := by cbv
    have htrimmed : NameSet.ofList ["f", "S"] =
        trimReceivers (NameSet.ofList ["this.f", "S", "f"]) := by decide
    obtain ⟨-, htrim, -, hcontract⟩ := validate_eq_trimReceivers_iff hreach hvalid
    have hdotless := htrim.mp htrimmed
    have hsame := (hcontract Rule.requiresNonNull ExitFacts.unknown ⟨0⟩ _ hraw hown).mpr hdotless
    exact ⟨hvalid, htrimmed, hdotless, hown.trans (congrArg Except.ok hsame)⟩
  · have hvalid : (after flags).validate ⟨0⟩ (NameSet.ofList ["a.b"]) =
        .ok (NameSet.ofList ["a.b"]) := by cbv
    have hraw : (after flags).annotationValues ⟨1⟩ "RequiresNonNull" =
        some (NameSet.ofList ["a.b"]) := by cbv
    have hown : Rule.requiresNonNull.ownContract (after flags) ExitFacts.unknown ⟨1⟩ ⟨0⟩ =
        .ok (Contract.declared .precondition (NameSet.ofList ["a.b"])) := by cbv
    have hdeclared : (after flags).declaredField? ⟨0⟩ "a.b" = some ⟨"a.b", true⟩ := by cbv
    have hdotted : ¬ (after flags).StaticEntriesDotless ⟨0⟩ (NameSet.ofList ["a.b"]) := by
      intro hdotless
      have hentry : "a.b" ∈ NameSet.ofList ["a.b"] := NameSet.mem_ofList.mpr List.mem_cons_self
      exact hdotless "a.b" hentry ⟨_, .own hdeclared, rfl⟩ (by decide)
    obtain ⟨-, htrim, hkinds, hcontract⟩ := validate_eq_trimReceivers_iff hreach hvalid
    have hapart := hcontract Rule.requiresNonNull ExitFacts.unknown ⟨1⟩ _ hraw hown
    exact ⟨hvalid, hdotted, htrim.not.mpr hdotted, fun kind => (hkinds kind).not.mpr hdotted,
      _, hown, hapart.not.mpr hdotted⟩

end Hierarchy

end FieldContracts
