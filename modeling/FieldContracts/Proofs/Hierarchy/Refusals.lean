import FieldContracts.Proofs.Hierarchy.Coherence

/-!
# When a step is refused

One equivalence for each operation says when the operation is refused and for which reason.  They
stand beside those of `Steps`, which say when an operation is accepted.
-/

namespace FieldContracts

namespace Hierarchy

variable {h : Hierarchy} {c s : ClassId} {name : String} {refusal : BuildError}

theorem classId?_isSome_iff :
    (h.classId? name).isSome = true ↔ ∃ c, h.className? c = some name := by
  constructor
  · intro hfound
    obtain ⟨c, hc⟩ := Option.isSome_iff_exists.mp hfound
    exact ⟨c, by simpa using List.find?_some hc⟩
  · rintro ⟨c, hname⟩
    cases hfound : h.classId? name with
    | none => exact absurd hname (className?_ne_of_classId?_eq_none hfound)
    | some d => rfl

theorem addClass_eq_error_iff :
    h.addClass name = .error refusal ↔
      (∃ c, h.className? c = some name) ∧ refusal = .duplicateClassName name := by
  rw [← classId?_isSome_iff]
  unfold addClass
  by_cases htaken : (h.classId? name).isSome = true
  · simp [htaken, eq_comm]
  · simp [htaken]

/-- An edge is refused for an unknown end, the lower one first, and then for the cycle that it
would close. -/
theorem edgeRefusal?_eq_some_iff :
    h.edgeRefusal? c s = some refusal ↔
      (h.classCount ≤ c.index ∧ refusal = .classNotFound c) ∨
      (c.index < h.classCount ∧ h.classCount ≤ s.index ∧ refusal = .classNotFound s) ∨
      ∃ className supertype, h.className? c = some className ∧
        h.className? s = some supertype ∧ c ∈ h.upward s ∧
          refusal = .inheritanceCycle className supertype := by
  rw [← className?_eq_none_iff, ← className?_eq_none_iff, ← exists_className?_iff]
  unfold edgeRefusal?
  cases h.className? c with
  | none => simp [eq_comm]
  | some className =>
      cases h.className? s with
      | none => simp [eq_comm]
      | some supertype => simp [eq_comm]

/-- A class that has a superclass gets no other one, whatever the edge. -/
theorem superclassRefusal?_eq_some_iff :
    h.superclassRefusal? c s = some refusal ↔
      (∃ taken className, h.superclass? c = some taken ∧ h.className? c = some className ∧
        refusal = .superclassAlreadySet className) ∨
      (h.superclass? c = none ∧ h.edgeRefusal? c s = some refusal) := by
  unfold superclassRefusal? superclass? className? class?
  cases h.registered? c with
  | none => simp
  | some entry =>
      cases hsuper : entry.superclass with
      | none => simp [Option.filter, hsuper]
      | some taken => simp [Option.filter, hsuper, eq_comm]

theorem setSuperclass_eq_error_iff :
    h.setSuperclass c s = .error refusal ↔ h.superclassRefusal? c s = some refusal := by
  unfold setSuperclass
  cases h.superclassRefusal? c s with
  | none => simp
  | some cause => simp

theorem addInterface_eq_error_iff :
    h.addInterface c s = .error refusal ↔ h.edgeRefusal? c s = some refusal := by
  unfold addInterface
  cases h.edgeRefusal? c s with
  | none => simp
  | some cause => simp

theorem addField_eq_error_iff {field : FieldDecl} :
    h.addField c field = .error refusal ↔
      (h.classCount ≤ c.index ∧ refusal = .classNotFound c) ∨
      ∃ decl, h.class? c = some decl ∧ (decl.field? field.name).isSome = true ∧
        refusal = .duplicateField decl.name field.name := by
  rw [← class?_eq_none_iff]
  unfold addField
  cases h.class? c with
  | none => simp [eq_comm (a := refusal)]
  | some decl =>
      by_cases htaken : (decl.field? field.name).isSome = true
      · simp [htaken, eq_comm (a := refusal)]
      · refine iff_of_false ?_ (by simp [htaken])
        simp only [if_neg htaken]
        exact nofun

/-- Only an unknown class refuses a method. -/
theorem addMethod_eq_error_iff {spec : MethodSpec} :
    h.addMethod c spec = .error refusal ↔
      h.classCount ≤ c.index ∧ refusal = .classNotFound c := by
  rw [← class?_eq_none_iff]
  unfold addMethod
  cases h.class? c with
  | none => simp [eq_comm]
  | some decl => exact iff_of_false nofun (by simp)

end Hierarchy

end FieldContracts
