import FieldContracts.Proofs.Hierarchy.Steps
import Mathlib.Logic.Relation

/-!
# The edges of a hierarchy

`edgesAfter ops` lists the supertype edges that a run adds, in the order in which they are accepted.
`superclass?_after` and `interfaces_after` say that look-ups follow exactly these edges, and
`Reachable.wellFormed` that every edge of a reachable hierarchy joins registered classes and that
no class lies above itself.  The latter needs the search for a way back to be complete: a new edge
closes a cycle only if its upper end already leads to its lower end.
-/

namespace FieldContracts

/-- Whether an edge leads to the superclass or to an interface. -/
inductive SupertypeKind where
  | superclass
  | interface
deriving DecidableEq, Repr

/-- An edge from a class to one of its direct supertypes. -/
structure SupertypeEdge where
  kind : SupertypeKind
  lower : ClassId
  upper : ClassId
deriving DecidableEq, Repr

namespace SupertypeEdge

/-- The upper ends of the edges of this kind that start at `c`, in order. -/
def uppersOf (kind : SupertypeKind) (c : ClassId) (edges : List SupertypeEdge) : List ClassId :=
  (edges.filter fun e => e.kind = kind ∧ e.lower = c).map (·.upper)

/-- Some edge, of either kind, leads from `c` to `s`. -/
def Joins (edges : List SupertypeEdge) (c s : ClassId) : Prop :=
  ∃ e ∈ edges, e.lower = c ∧ e.upper = s

@[simp]
theorem uppersOf_nil (kind : SupertypeKind) (c : ClassId) : uppersOf kind c [] = [] := rfl

theorem uppersOf_append (kind : SupertypeKind) (c : ClassId) (xs ys : List SupertypeEdge) :
    uppersOf kind c (xs ++ ys) = uppersOf kind c xs ++ uppersOf kind c ys := by
  simp [uppersOf]

theorem uppersOf_singleton (kind : SupertypeKind) (c : ClassId) (e : SupertypeEdge) :
    uppersOf kind c [e] = if e.kind = kind ∧ e.lower = c then [e.upper] else [] := by
  by_cases hmatch : e.kind = kind ∧ e.lower = c
  · simp [uppersOf, hmatch]
  · rw [if_neg hmatch, uppersOf, List.filter_cons_of_neg (by simpa using hmatch)]
    rfl

theorem mem_uppersOf_iff {kind : SupertypeKind} {c s : ClassId} {edges : List SupertypeEdge} :
    s ∈ uppersOf kind c edges ↔ ⟨kind, c, s⟩ ∈ edges := by
  constructor
  · intro hmem
    obtain ⟨e, he, rfl⟩ := List.mem_map.mp hmem
    obtain ⟨hedge, hends⟩ := List.mem_filter.mp he
    obtain ⟨rfl, rfl⟩ : e.kind = kind ∧ e.lower = c := by simpa using hends
    exact hedge
  · intro hedge
    exact List.mem_map.mpr ⟨⟨kind, c, s⟩, List.mem_filter.mpr ⟨hedge, by simp⟩, rfl⟩

theorem joins_iff {edges : List SupertypeEdge} {c s : ClassId} :
    Joins edges c s ↔ s ∈ uppersOf .superclass c edges ∨ s ∈ uppersOf .interface c edges := by
  rw [mem_uppersOf_iff, mem_uppersOf_iff]
  constructor
  · rintro ⟨⟨kind, lower, upper⟩, hedge, rfl, rfl⟩
    cases kind with
    | superclass => exact Or.inl hedge
    | interface => exact Or.inr hedge
  · rintro (hedge | hedge)
    · exact ⟨_, hedge, rfl, rfl⟩
    · exact ⟨_, hedge, rfl, rfl⟩

end SupertypeEdge

open SupertypeEdge

/-- The edge that the operation asks for. -/
def Operation.edge? : Operation → Option SupertypeEdge
  | .setSuperclass c s => some ⟨.superclass, c, s⟩
  | .addInterface c i => some ⟨.interface, c, i⟩
  | .addClass _ => none
  | .addField _ _ => none
  | .addMethod _ _ => none

namespace Hierarchy

variable {h h' : Hierarchy} {c s : ClassId}

/-! ## One step -/

/-- An accepted step puts its edge, if it has one, behind the edges of the same kind and start. -/
theorem supertypes_of_apply {op : Operation} (happly : op.apply h = .ok h') (d : ClassId) :
    (h'.superclass? d).toList =
        (h.superclass? d).toList ++ uppersOf .superclass d op.edge?.toList ∧
      h'.interfaces d = h.interfaces d ++ uppersOf .interface d op.edge?.toList := by
  cases op with
  | addClass name =>
      obtain ⟨-, rfl⟩ := addClass_eq_ok_iff.mp happly
      simp [Operation.edge?]
  | setSuperclass c s =>
      obtain ⟨⟨hnone, hedge⟩, rfl⟩ := setSuperclass_eq_ok_iff.mp happly
      have hc : c.index < h.classCount := (edgeRefusal?_eq_none_iff.mp hedge).1
      simp only [Operation.edge?, Option.toList_some, uppersOf_singleton, true_and,
        reduceCtorEq, false_and, if_false, List.append_nil, interfaces_withSuperclass, and_true]
      rw [superclass?_withSuperclass hc]
      by_cases hcd : c = d
      · subst hcd
        simp [hnone]
      · simp [hcd]
  | addInterface c i =>
      obtain ⟨hedge, rfl⟩ := addInterface_eq_ok_iff.mp happly
      have hc : c.index < h.classCount := (edgeRefusal?_eq_none_iff.mp hedge).1
      simp only [Operation.edge?, Option.toList_some, uppersOf_singleton, true_and,
        reduceCtorEq, false_and, if_false, List.append_nil, superclass?_withInterface]
      rw [interfaces_withInterface hc]
      by_cases hcd : c = d
      · simp [hcd]
      · simp [hcd]
  | addField c field =>
      obtain ⟨-, rfl⟩ := addField_eq_ok_iff.mp happly
      simp [Operation.edge?]
  | addMethod c spec =>
      obtain ⟨-, rfl⟩ := addMethod_eq_ok_iff.mp happly
      simp [Operation.edge?]

/-- An edge that is added was not refused. -/
theorem edgeRefusal?_of_apply {op : Operation} (happly : op.apply h = .ok h')
    {e : SupertypeEdge} (hedge : op.edge? = some e) : h.edgeRefusal? e.lower e.upper = none := by
  cases op with
  | setSuperclass c s =>
      obtain rfl : ⟨.superclass, c, s⟩ = e := by simpa [Operation.edge?] using hedge
      exact (setSuperclass_eq_ok_iff.mp happly).1.2
  | addInterface c i =>
      obtain rfl : ⟨.interface, c, i⟩ = e := by simpa [Operation.edge?] using hedge
      exact (addInterface_eq_ok_iff.mp happly).1
  | addClass name => simp [Operation.edge?] at hedge
  | addField c field => simp [Operation.edge?] at hedge
  | addMethod c spec => simp [Operation.edge?] at hedge

/-- A step that adds an edge changes no name and no member. -/
theorem class?_of_apply {op : Operation} (happly : op.apply h = .ok h') {e : SupertypeEdge}
    (hedge : op.edge? = some e) (d : ClassId) : h'.class? d = h.class? d := by
  cases op with
  | setSuperclass c s =>
      obtain ⟨-, rfl⟩ := setSuperclass_eq_ok_iff.mp happly
      exact class?_withSuperclass
  | addInterface c i =>
      obtain ⟨-, rfl⟩ := addInterface_eq_ok_iff.mp happly
      exact class?_withInterface
  | addClass name => simp [Operation.edge?] at hedge
  | addField c field => simp [Operation.edge?] at hedge
  | addMethod c spec => simp [Operation.edge?] at hedge

/-- After an accepted step the direct supertypes are the old ones and the upper end of the new
edge. -/
theorem directSupertype_of_apply {op : Operation} (happly : op.apply h = .ok h') {c s : ClassId} :
    h'.DirectSupertype c s ↔ h.DirectSupertype c s ∨ Joins op.edge?.toList c s := by
  obtain ⟨hsuper, hinterfaces⟩ := supertypes_of_apply happly c
  show s ∈ (h'.superclass? c).toList ++ h'.interfaces c ↔
    s ∈ (h.superclass? c).toList ++ h.interfaces c ∨ Joins op.edge?.toList c s
  rw [hsuper, hinterfaces, joins_iff]
  simp only [List.mem_append]
  exact or_or_or_comm

/-- No accepted step unregisters a class. -/
theorem classCount_le_of_apply {op : Operation} (happly : op.apply h = .ok h') :
    h.classCount ≤ h'.classCount := by
  cases op with
  | addClass name =>
      obtain ⟨-, rfl⟩ := addClass_eq_ok_iff.mp happly
      simp
  | setSuperclass c s =>
      obtain ⟨-, rfl⟩ := setSuperclass_eq_ok_iff.mp happly
      simp
  | addInterface c i =>
      obtain ⟨-, rfl⟩ := addInterface_eq_ok_iff.mp happly
      simp
  | addField c field =>
      obtain ⟨-, rfl⟩ := addField_eq_ok_iff.mp happly
      simp
  | addMethod c spec =>
      obtain ⟨-, rfl⟩ := addMethod_eq_ok_iff.mp happly
      simp

/-! ## No class above itself -/

/-- Every supertype is registered, and no class lies above itself. -/
structure WellFormed (h : Hierarchy) : Prop where
  registered : h.SupertypesRegistered
  irreflexive : ∀ c, ¬ h.StrictSupertype c c

/-- A way upward that uses one more edge, from `c` to `s`, either does without it or leads up to
`c` and on from `s`. -/
theorem strictSupertype_of_new_edge
    (hnew : ∀ a b, h'.DirectSupertype a b → h.DirectSupertype a b ∨ (a = c ∧ b = s))
    {a b : ClassId} (hab : h'.StrictSupertype a b) :
    h.StrictSupertype a b ∨
      ((a = c ∨ h.StrictSupertype a c) ∧ (b = s ∨ h.StrictSupertype s b)) := by
  -- The way is cut at its last use of the new edge.
  induction hab with
  | single hlast =>
      rcases hnew _ _ hlast with hold | ⟨rfl, rfl⟩
      · exact Or.inl (.single hold)
      · exact Or.inr ⟨Or.inl rfl, Or.inl rfl⟩
  | tail _ hlast ih =>
      rcases hnew _ _ hlast with hold | ⟨rfl, rfl⟩
      · rcases ih with ih | ⟨hbelow, rfl | habove⟩
        · exact Or.inl (.tail ih hold)
        · exact Or.inr ⟨hbelow, Or.inr (.single hold)⟩
        · exact Or.inr ⟨hbelow, Or.inr (.tail habove hold)⟩
      · rcases ih with ih | ⟨hbelow, -⟩
        · exact Or.inr ⟨Or.inr ih, Or.inl rfl⟩
        · exact Or.inr ⟨hbelow, Or.inl rfl⟩

/-- An accepted edge does not lead back to where it starts. -/
theorem WellFormed.not_above_of_edgeRefusal? (hwf : h.WellFormed)
    (hedge : h.edgeRefusal? c s = none) : s ≠ c ∧ ¬ h.StrictSupertype s c := by
  obtain ⟨-, hs, hout⟩ := edgeRefusal?_eq_none_iff.mp hedge
  rw [mem_upward_iff hwf.registered hs] at hout
  exact ⟨fun heq => hout (Or.inl heq.symm), fun habove => hout (Or.inr habove)⟩

/-- An accepted step keeps the hierarchy well formed. -/
theorem WellFormed.apply (hwf : h.WellFormed) {op : Operation} (happly : op.apply h = .ok h') :
    h'.WellFormed := by
  have hcount : h.classCount ≤ h'.classCount := classCount_le_of_apply happly
  cases hop : op.edge? with
  | none =>
      have hsame : ∀ a b, h'.DirectSupertype a b → h.DirectSupertype a b := by
        intro a b hab
        simpa [directSupertype_of_apply happly, hop, Joins] using hab
      constructor
      · intro a b hab
        exact Nat.lt_of_lt_of_le (hwf.registered a b (hsame a b hab)) hcount
      · intro a ha
        exact hwf.irreflexive a (Relation.TransGen.mono hsame a a ha)
  | some e =>
      have hnew : ∀ a b, h'.DirectSupertype a b →
          h.DirectSupertype a b ∨ (a = e.lower ∧ b = e.upper) := by
        intro a b hab
        simpa [directSupertype_of_apply happly, hop, Joins, eq_comm] using hab
      have hedge : h.edgeRefusal? e.lower e.upper = none := edgeRefusal?_of_apply happly hop
      obtain ⟨hne, hnot⟩ := hwf.not_above_of_edgeRefusal? hedge
      constructor
      · intro a b hab
        rcases hnew a b hab with hold | ⟨-, rfl⟩
        · exact Nat.lt_of_lt_of_le (hwf.registered a b hold) hcount
        · exact Nat.lt_of_lt_of_le (edgeRefusal?_eq_none_iff.mp hedge).2.1 hcount
      · intro a ha
        -- A cycle through the new edge would have been a way back from its upper end before.
        rcases strictSupertype_of_new_edge hnew ha with hold | ⟨hbelow, habove⟩
        · exact hwf.irreflexive a hold
        · rcases hbelow with rfl | hbelow
          · rcases habove with heq | habove
            · exact hne heq.symm
            · exact hnot habove
          · rcases habove with rfl | habove
            · exact hnot hbelow
            · exact hnot (.trans habove hbelow)

theorem wellFormed_empty : empty.WellFormed := by
  have hnone : ∀ a b, ¬ empty.DirectSupertype a b := by
    intro a b hab
    exact absurd (lt_classCount_of_directSupertype hab) (Nat.not_lt_zero _)
  constructor
  · intro a b hab
    exact absurd hab (hnone a b)
  · intro a ha
    obtain ⟨b, hab, -⟩ := Relation.TransGen.head'_iff.mp ha
    exact hnone a b hab

theorem Reachable.wellFormed (hreach : h.Reachable) : h.WellFormed :=
  hreach.induction wellFormed_empty fun _ _ _ _ hwf happly => hwf.apply happly

/-! ## Runs -/

/-- The edges that the steps add, in order, to those of `h`; a refused step adds none. -/
def edgesFrom (h : Hierarchy) : List Operation → List SupertypeEdge
  | [] => []
  | op :: rest =>
      match op.apply h with
      | .ok next => op.edge?.toList ++ next.edgesFrom rest
      | .error _ => h.edgesFrom rest

/-- The edges that a sequence of steps adds to nothing, in order. -/
def edgesAfter (ops : List Operation) : List SupertypeEdge := empty.edgesFrom ops

theorem supertypes_of_run (h : Hierarchy) (ops : List Operation) (c : ClassId) :
    ((h.performAll ops).superclass? c).toList =
        (h.superclass? c).toList ++ uppersOf .superclass c (h.edgesFrom ops) ∧
      (h.performAll ops).interfaces c =
        h.interfaces c ++ uppersOf .interface c (h.edgesFrom ops) := by
  induction ops generalizing h with
  | nil => simp [edgesFrom, performAll_nil]
  | cons op rest ih =>
      rw [performAll_cons, edgesFrom]
      cases happly : op.apply h with
      | ok next =>
          obtain ⟨hsuper, hinterfaces⟩ := supertypes_of_apply happly c
          obtain ⟨ihsuper, ihinterfaces⟩ := ih next
          rw [perform_of_apply_eq_ok happly, ihsuper, ihinterfaces, hsuper, hinterfaces,
            uppersOf_append, uppersOf_append, List.append_assoc, List.append_assoc]
          exact ⟨rfl, rfl⟩
      | error refusal =>
          -- A refused step adds no edge, and the run goes on from the same hierarchy.
          rw [perform_of_apply_eq_error happly]
          exact ih h

/-- The superclass of a class is the upper end of the only edge of this kind that starts there. -/
theorem superclass?_after (ops : List Operation) (c : ClassId) :
    ((after ops).superclass? c).toList = uppersOf .superclass c (edgesAfter ops) := by
  have hrun := (supertypes_of_run empty ops c).1
  rwa [show empty.superclass? c = none from rfl, Option.toList_none, List.nil_append] at hrun

/-- The interfaces of a class are the upper ends of its edges of this kind, in the order in which
they were accepted. -/
theorem interfaces_after (ops : List Operation) (c : ClassId) :
    (after ops).interfaces c = uppersOf .interface c (edgesAfter ops) := by
  have hrun := (supertypes_of_run empty ops c).2
  rwa [show empty.interfaces c = [] from rfl, List.nil_append] at hrun

theorem directSupertype_after_iff (ops : List Operation) :
    (after ops).DirectSupertype c s ↔ Joins (edgesAfter ops) c s := by
  rw [joins_iff, ← superclass?_after, ← interfaces_after, ← List.mem_append]
  rfl

end Hierarchy

end FieldContracts
