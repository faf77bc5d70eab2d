import FieldContracts.Proofs.Check.Location
import FieldContracts.Proofs.Hierarchy.MethodOrder
import Mathlib

/-!
# The whole check covers every method once

Checking a hierarchy is checking the methods of `methodOrder` one after the other.  Since this list
holds every registered method once, the diagnostics located at a method are those of checking it
alone (`filter_checkAll`), and they stand in one piece (`pairwise_checkAll`).
`checkAll_covers_methods` puts this together for reachable hierarchies.
-/

namespace FieldContracts

namespace Config

open Hierarchy

variable {h : Hierarchy} {config : Config} {facts : ExitFacts} {m : MethodId} {d : Diagnostic}

theorem checkAll_eq_flatMap_methodOrder :
    config.checkAll h facts = h.methodOrder.flatMap (config.checkMethod h facts) := by
  unfold checkAll methodOrder
  rw [List.flatMap_assoc]
  rfl

/-- The two rules report one after the other. -/
theorem checkMethod_eq_append :
    config.checkMethod h facts m =
      (Rule.check ⟨.precondition, config.precondition, config.policy⟩ h facts m).diagnostics ++
        (Rule.check ⟨.postcondition, config.postcondition, config.policy⟩ h facts
          m).diagnostics := by
  simp [checkMethod, rules]

theorem filter_checkAll (hco : h.Coherent) (hm : m ∈ h.methodIds) :
    (config.checkAll h facts).filter (fun d => d.location.method == m) =
      config.checkMethod h facts m := by
  rw [checkAll_eq_flatMap_methodOrder]
  refine filter_flatMap_eq_block (nodup_methodOrder hco) ((mem_methodOrder_iff hco).mpr hm)
    (fun d hd => ?_) fun n _ hne d hd => ?_
  · exact method_of_mem_checkMethod hd
  · rw [method_of_mem_checkMethod hd]
    exact hne

theorem filter_checkAll_eq_nil (hco : h.Coherent) (hm : m ∉ h.methodIds) :
    (config.checkAll h facts).filter (fun d => d.location.method == m) = [] := by
  rw [checkAll_eq_flatMap_methodOrder]
  refine filter_flatMap_eq_nil fun n hn d hd heq => ?_
  rw [method_of_mem_checkMethod hd] at heq
  exact hm (heq ▸ (mem_methodOrder_iff hco).mp hn)

theorem location_of_mem_checkAll (hd : d ∈ config.checkAll h facts) :
    d.location = h.location d.location.method := by
  rw [checkAll_eq_flatMap_methodOrder] at hd
  obtain ⟨m, -, hd⟩ := List.mem_flatMap.mp hd
  rw [location_of_mem_checkMethod hd]
  rfl

/-- A later diagnostic is located at the same method or at one declared later. -/
theorem pairwise_checkAll (hco : h.Coherent) :
    (config.checkAll h facts).Pairwise fun d e =>
      d.location.method = e.location.method ∨
        h.DeclaredBefore d.location.method e.location.method := by
  rw [checkAll_eq_flatMap_methodOrder, List.pairwise_flatMap]
  constructor
  · intro m _
    refine List.pairwise_of_forall_mem_list fun d hd e he => Or.inl ?_
    rw [method_of_mem_checkMethod hd, method_of_mem_checkMethod he]
  · refine (pairwise_declaredBefore hco).imp fun {m n} hmn d hd e he => Or.inr ?_
    rw [method_of_mem_checkMethod hd, method_of_mem_checkMethod he]
    exact hmn

/-- Of each registered method a whole check reports, in one piece, what checking the method alone
reports, first on its precondition and then on its postcondition; it reports nothing else, and in
the order in which the methods are declared. -/
theorem checkAll_covers_methods (hreach : h.Reachable) (config : Config) (facts : ExitFacts) :
    (∀ m, (config.checkAll h facts).filter (fun d => d.location.method == m) =
      if m ∈ h.methodIds then config.checkMethod h facts m else []) ∧
    (∀ m, config.checkMethod h facts m =
      (Rule.check ⟨.precondition, config.precondition, config.policy⟩ h facts m).diagnostics ++
        (Rule.check ⟨.postcondition, config.postcondition, config.policy⟩ h facts
          m).diagnostics) ∧
    (∀ d ∈ config.checkAll h facts,
      d.location.qualifiedName = h.qualifiedName d.location.method) ∧
    (config.checkAll h facts).Pairwise fun d e =>
      d.location.method = e.location.method ∨
        h.DeclaredBefore d.location.method e.location.method := by
  have hco : h.Coherent := hreach.coherent
  refine ⟨fun m => ?_, fun _ => checkMethod_eq_append, fun d hd => ?_, pairwise_checkAll hco⟩
  · by_cases hm : m ∈ h.methodIds
    · rw [if_pos hm, filter_checkAll hco hm]
    · rw [if_neg hm, filter_checkAll_eq_nil hco hm]
  · exact congrArg Location.qualifiedName (location_of_mem_checkAll hd)

/-- Two classes below `Base` weaken its postcondition.  The methods are registered from the last class
to the first. -/
def outOfOrder : List Operation := [
  .addClass "Base", .addClass "First", .addClass "Second",
  .setSuperclass ⟨1⟩ ⟨0⟩, .setSuperclass ⟨2⟩ ⟨0⟩, .addField ⟨0⟩ ⟨"f", false⟩,
  .addMethod ⟨2⟩ ⟨⟨"run", []⟩, false, [⟨"RequiresNonNull", ["f"]⟩]⟩,
  .addMethod ⟨1⟩ ⟨⟨"run", []⟩, false, []⟩,
  .addMethod ⟨0⟩ ⟨⟨"run", []⟩, false, [⟨"EnsuresNonNull", ["f"]⟩]⟩]

theorem checkAll_covers_methods_outOfOrder :
    (Config.standard.checkAll (after outOfOrder) ExitFacts.unknown).map
        (fun d => (d.kind, d.location.method)) =
      [(.wrongOverridePostcondition, ⟨1⟩), (.wrongOverridePrecondition, ⟨0⟩),
        (.wrongOverridePostcondition, ⟨0⟩)] ∧
    (Config.standard.checkAll (after outOfOrder) ExitFacts.unknown).filter
        (fun d => d.location.method == ⟨0⟩) =
      Config.standard.checkMethod (after outOfOrder) ExitFacts.unknown ⟨0⟩ ∧
    (Config.standard.checkAll (after outOfOrder) ExitFacts.unknown).filter
        (fun d => d.location.method == ⟨3⟩) = [] ∧
    (after outOfOrder).DeclaredBefore ⟨1⟩ ⟨0⟩ := by
  have hreported : (Config.standard.checkAll (after outOfOrder) ExitFacts.unknown).map
      (fun d => (d.kind, d.location.method)) =
        [(.wrongOverridePostcondition, ⟨1⟩), (.wrongOverridePrecondition, ⟨0⟩),
          (.wrongOverridePostcondition, ⟨0⟩)] := by cbv
  have hcount : (after outOfOrder).methodCount = 3 := by cbv
  have hreach : (after outOfOrder).Reachable := ⟨outOfOrder, rfl⟩
  obtain ⟨hfilter, -, -, hordered⟩ :=
    checkAll_covers_methods hreach Config.standard ExitFacts.unknown
  have hlocated : ((Config.standard.checkAll (after outOfOrder) ExitFacts.unknown).map
      (fun d => (d.kind, d.location.method))).Pairwise
        fun a b => a.2 = b.2 ∨ (after outOfOrder).DeclaredBefore a.2 b.2 :=
    List.pairwise_map.mpr hordered
  refine ⟨hreported, ?_, ?_, ?_⟩
  · rw [hfilter, if_pos]
    rw [mem_methodIds_iff, hcount]
    decide
  · rw [hfilter, if_neg]
    rw [mem_methodIds_iff, hcount]
    decide
  · rw [hreported] at hlocated
    simpa using hlocated

end Config

end FieldContracts
