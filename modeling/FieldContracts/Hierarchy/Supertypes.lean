import FieldContracts.Hierarchy.Basic

/-!
# Classes above a class

`Hierarchy.preorder` walks upward from a list of classes and lists every class it meets once, a
class before what lies above it and the superclass before the interfaces.  The walk ends because
each class that it lists was not listed before.  `Hierarchy.StrictSupertype` says the same without
a walk.
-/

namespace FieldContracts

namespace Hierarchy

/-- The class `s` is the superclass or an interface of `c`. -/
def DirectSupertype (h : Hierarchy) (c s : ClassId) : Prop := s ∈ h.directSupertypes c

instance (h : Hierarchy) (c s : ClassId) : Decidable (h.DirectSupertype c s) :=
  inferInstanceAs (Decidable (s ∈ h.directSupertypes c))

/-- The class `s` lies above `c`, through superclasses and interfaces in any mix. -/
def StrictSupertype (h : Hierarchy) : ClassId → ClassId → Prop :=
  Relation.TransGen h.DirectSupertype

/-- The registered classes that are not yet in `seen`. -/
def unseen (h : Hierarchy) (seen : List ClassId) : List ClassId :=
  h.classIds.filter (· ∉ seen)

theorem unseen_cons {h : Hierarchy} {seen : List ClassId} {c : ClassId} :
    h.unseen (c :: seen) = (h.unseen seen).filter (· ≠ c) := by
  simp [unseen, List.filter_filter]

/-- Seeing one more registered class leaves fewer unseen. -/
theorem unseen_cons_lt {h : Hierarchy} {seen : List ClassId} {c : ClassId}
    (hc : c.index < h.classCount) (hseen : c ∉ seen) :
    (h.unseen (c :: seen)).length < (h.unseen seen).length := by
  rw [unseen_cons, List.length_filter_lt_length_iff_exists]
  exact ⟨c, by simp [unseen, hc, hseen], by simp⟩

/-- The registered classes at or above those of `pending`, except those of `seen`: each once, depth
first, in the order of `pending` and of the direct supertypes. -/
def preorder (h : Hierarchy) (pending seen : List ClassId) : List ClassId :=
  match pending with
  | [] => []
  | c :: rest =>
      if _hnew : c.index < h.classCount ∧ c ∉ seen then
        c :: h.preorder (h.directSupertypes c ++ rest) (c :: seen)
      else
        h.preorder rest seen
termination_by ((h.unseen seen).length, pending.length)
decreasing_by
  · exact Prod.Lex.left _ _ (unseen_cons_lt _hnew.1 _hnew.2)
  · exact Prod.Lex.right _ (Nat.lt_succ_self _)

/-- The class itself and every class above it. -/
def upward (h : Hierarchy) (c : ClassId) : List ClassId := h.preorder [c] []

/-- Every class above the class, nearest branch first. -/
def above (h : Hierarchy) (c : ClassId) : List ClassId := h.preorder (h.directSupertypes c) []

end Hierarchy

end FieldContracts
