import FieldContracts.Proofs.Hierarchy.OverrideSearch
import Mathlib

/-!
# The search for an overridden method, turn by turn

`SearchState.turn` is one turn of a search that keeps a stack of classes and a list of the classes
it has met, and skips a class that it meets again.  `searchFrom` is the plain recursion, which keeps
nothing.  `exists_turns` says that the turns come to an end, after at most one for each edge between
classes and one more, and `DepthFirst.findSome?_eq` that the plain recursion answers with the first
match of the plain listing.  `closestOverridden?_eq_plainOverridden?` puts both together.
-/

namespace FieldContracts

/-- Where a search stands: at work, with the classes that wait, the next one first, and the classes
that it has met, or at its end. -/
inductive SearchState where
  | atWork (stack seen : List ClassId)
  | ended (answer : Option MethodId)

/-- One turn: the next class is skipped, or answers, or is replaced by its direct supertypes. -/
def SearchState.turn (h : Hierarchy) (signature : Signature) : SearchState → SearchState
  | .ended answer => .ended answer
  | .atWork [] _ => .ended none
  | .atWork (c :: rest) seen =>
      if c ∈ seen then
        .atWork rest seen
      else
        match h.class? c, h.overridable? signature c with
        | none, _ => .atWork rest (c :: seen)
        | some _, some m => .ended (some m)
        | some _, none => .atWork (h.directSupertypes c ++ rest) (c :: seen)

namespace Hierarchy

variable {h : Hierarchy} {c : ClassId} {rest stack seen : List ClassId} {signature : Signature}

/-! ## The turns come to an end -/

theorem turn_of_seen (hseen : c ∈ seen) :
    SearchState.turn h signature (.atWork (c :: rest) seen) = .atWork rest seen := by
  simp [SearchState.turn, hseen]

theorem turn_of_match {m : MethodId} (hc : c.index < h.classCount) (hseen : c ∉ seen)
    (hmatch : h.overridable? signature c = some m) :
    SearchState.turn h signature (.atWork (c :: rest) seen) = .ended (some m) := by
  obtain ⟨decl, hdecl⟩ := exists_class?_iff.mpr hc
  simp [SearchState.turn, hseen, hdecl, hmatch]

theorem turn_of_mismatch (hc : c.index < h.classCount) (hseen : c ∉ seen)
    (hnone : h.overridable? signature c = none) :
    SearchState.turn h signature (.atWork (c :: rest) seen) =
      .atWork (h.directSupertypes c ++ rest) (c :: seen) := by
  obtain ⟨decl, hdecl⟩ := exists_class?_iff.mpr hc
  simp [SearchState.turn, hseen, hdecl, hnone]

/-- The edges that start at some classes. -/
def edgeCount (h : Hierarchy) (cs : List ClassId) : Nat :=
  (cs.map fun c => (h.directSupertypes c).length).sum

/-- A class that is met for the first time takes its edges out of the count. -/
theorem edgeCount_unseen_cons (hc : c.index < h.classCount) (hseen : c ∉ seen) :
    (h.directSupertypes c).length + h.edgeCount (h.unseen (c :: seen)) =
      h.edgeCount (h.unseen seen) := by
  have hmem : c ∈ h.unseen seen := by simp [unseen, hc, hseen]
  have herase : h.unseen (c :: seen) = (h.unseen seen).erase c := by
    have hnodup : (h.unseen seen).Nodup := nodup_classIds.filter _
    rw [unseen_cons, hnodup.erase_eq_filter]
    refine List.filter_congr fun d _ => ?_
    by_cases hd : d = c
    · simp [hd]
    · simp [hd]
  rw [herase]
  exact List.sum_map_erase (fun d => (h.directSupertypes d).length) hmem

/-- The search ends, and it ends with the first match along the walk upward. -/
theorem exists_turns (hreg : h.SupertypesRegistered)
    (hstack : ∀ c ∈ stack, c.index < h.classCount) :
    ∃ turns ≤ stack.length + h.edgeCount (h.unseen seen) + 1,
      (SearchState.turn h signature)^[turns] (.atWork stack seen) =
        .ended ((h.preorder stack seen).findSome? (h.overridable? signature)) := by
  -- Each turn takes a class off the stack; what it puts there instead was counted before.
  fun_induction h.preorder stack seen with
  | case1 seen => exact ⟨1, by omega, rfl⟩
  | case2 seen c rest hnew ih =>
      cases hmatch : h.overridable? signature c with
      | some m =>
          refine ⟨1, by omega, ?_⟩
          rw [Function.iterate_one, turn_of_match hnew.1 hnew.2 hmatch, List.findSome?_cons, hmatch]
      | none =>
          have hnext : ∀ d ∈ h.directSupertypes c ++ rest, d.index < h.classCount := by
            intro d hd
            rcases List.mem_append.mp hd with hd | hd
            · exact hreg c d hd
            · exact hstack d (List.mem_cons_of_mem c hd)
          obtain ⟨turns, hturns, hend⟩ := ih hnext
          have hcount := edgeCount_unseen_cons hnew.1 hnew.2
          rw [List.length_append] at hturns
          refine ⟨turns + 1, by rw [List.length_cons]; omega, ?_⟩
          rw [Function.iterate_succ_apply, turn_of_mismatch hnew.1 hnew.2 hmatch, hend,
            List.findSome?_cons, hmatch]
  | case3 seen c rest hold ih =>
      have hseen : c ∈ seen := Decidable.byContradiction fun hnot =>
        hold ⟨hstack c List.mem_cons_self, hnot⟩
      obtain ⟨turns, hturns, hend⟩ := ih fun d hd => hstack d (List.mem_cons_of_mem c hd)
      refine ⟨turns + 1, by rw [List.length_cons]; omega, ?_⟩
      rw [Function.iterate_succ_apply, turn_of_seen hseen, hend]

/-! ## The plain recursion -/

/-- The first match of the class itself, and otherwise the first that is found from one of its
direct supertypes, in their order.  The depth falls with each call, as there are no cycles. -/
def WellFormed.searchFrom (hwf : h.WellFormed) (signature : Signature) (c : ClassId) :
    Option MethodId :=
  match h.overridable? signature c with
  | some m => some m
  | none => (h.directSupertypes c).attach.findSome? fun s => hwf.searchFrom signature s.1
termination_by h.depth c
decreasing_by exact hwf.depth_lt s.2

theorem WellFormed.searchFrom_eq (hwf : h.WellFormed) :
    hwf.searchFrom signature c =
      (h.overridable? signature c).or
        ((h.directSupertypes c).findSome? (hwf.searchFrom signature)) := by
  rw [searchFrom]
  cases h.overridable? signature c with
  | some m => rfl
  | none =>
      rw [Option.none_or]
      show (h.directSupertypes c).attach.findSome? _ = _
      rw [List.findSome?_subtype fun s _ => rfl, List.unattach_attach]

/-- The plain recursion finds the first match of the plain listing. -/
theorem DepthFirst.findSome?_eq (hwf : h.WellFormed) {cs order : List ClassId}
    (horder : h.DepthFirst cs order) :
    order.findSome? (h.overridable? signature) = cs.findSome? (hwf.searchFrom signature) := by
  induction horder with
  | nil => rfl
  | @cons c rest below tail _ _ ihbelow ihtail =>
      calc (c :: below ++ tail).findSome? (h.overridable? signature)
          = (h.overridable? signature c).or ((below.findSome? (h.overridable? signature)).or
              (tail.findSome? (h.overridable? signature))) := by
            rw [List.cons_append, List.findSome?_cons, List.findSome?_append]
            cases h.overridable? signature c <;> rfl
        _ = (hwf.searchFrom signature c).or (rest.findSome? (hwf.searchFrom signature)) := by
            rw [ihbelow, ihtail, ← Option.or_assoc, ← hwf.searchFrom_eq]
        _ = (c :: rest).findSome? (hwf.searchFrom signature) := by
            rw [List.findSome?_cons]
            cases hwf.searchFrom signature c <;> rfl

/-- The method that `m` overrides according to the plain recursion. -/
def WellFormed.plainOverridden? (hwf : h.WellFormed) (m : MethodId) : Option MethodId :=
  match h.method? m with
  | none => none
  | some decl =>
      if decl.isStatic then none
      else (h.directSupertypes decl.owner).findSome? (hwf.searchFrom decl.signature)

/-- The method that is found is the one that the plain recursion finds, and the search with a stack
ends with it: after at most as many turns as there are edges, those of the method's class counted
twice, and one more. -/
theorem closestOverridden?_eq_plainOverridden? (hreach : h.Reachable) (m : MethodId) :
    h.closestOverridden? m = hreach.wellFormed.plainOverridden? m ∧
      ∀ decl, h.method? m = some decl → decl.isStatic = false →
        ∃ turns ≤ (h.directSupertypes decl.owner).length + h.edgeCount h.classIds + 1,
          (SearchState.turn h decl.signature)^[turns]
              (.atWork (h.directSupertypes decl.owner) []) =
            .ended (h.closestOverridden? m) := by
  have hwf : h.WellFormed := hreach.wellFormed
  constructor
  · unfold WellFormed.plainOverridden?
    cases hm : h.method? m with
    | none => simp [closestOverridden?, hm]
    | some decl =>
        cases hstatic : decl.isStatic with
        | true => simp [closestOverridden?_of_static hm hstatic, hstatic]
        | false =>
            obtain ⟨order, horder⟩ := hwf.exists_depthFirst (h.directSupertypes decl.owner)
            rw [closestOverridden?_eq_findSome? hwf hm hstatic horder, horder.findSome?_eq hwf]
            simp [hstatic]
  · intro decl hm hinst
    have hall : h.unseen [] = h.classIds := by simp [unseen]
    rw [closestOverridden?_of_instance hm hinst, ← hall]
    exact exists_turns hwf.registered fun s hs => hwf.registered decl.owner s hs

/-- `Tile` comes to `Square` twice, as its superclass and as an interface, and to `Shape` over both
`Square` and `Drawn`, the only one that declares `area`. -/
def tile : List Operation := [
  .addClass "Shape", .addClass "Square", .addClass "Drawn", .addClass "Tile",
  .addInterface ⟨1⟩ ⟨0⟩, .addInterface ⟨2⟩ ⟨0⟩,
  .setSuperclass ⟨3⟩ ⟨1⟩, .addInterface ⟨3⟩ ⟨1⟩, .addInterface ⟨3⟩ ⟨2⟩,
  .addMethod ⟨2⟩ ⟨⟨"area", []⟩, false, []⟩, .addMethod ⟨3⟩ ⟨⟨"area", []⟩, false, []⟩]

theorem closestOverridden?_eq_plainOverridden?_tile :
    (after tile).method? ⟨1⟩ = some ⟨⟨⟨"area", []⟩, false, []⟩, ⟨1⟩, ⟨3⟩⟩ ∧
      (Reachable.wellFormed ⟨tile, rfl⟩ : (after tile).WellFormed).plainOverridden? ⟨1⟩ =
        some ⟨0⟩ ∧
      ∃ turns ≤ 3 + 5 + 1,
        (SearchState.turn (after tile) ⟨"area", []⟩)^[turns] (.atWork [⟨1⟩, ⟨1⟩, ⟨2⟩] []) =
          .ended (some ⟨0⟩) := by
  have hreach : (after tile).Reachable := ⟨tile, rfl⟩
  have hm : (after tile).method? ⟨1⟩ = some ⟨⟨⟨"area", []⟩, false, []⟩, ⟨1⟩, ⟨3⟩⟩ := by cbv
  have hsupertypes : (after tile).directSupertypes ⟨3⟩ = [⟨1⟩, ⟨1⟩, ⟨2⟩] := by cbv
  have hedges : (after tile).edgeCount (after tile).classIds = 5 := by cbv
  have hfound : (after tile).closestOverridden? ⟨1⟩ = some ⟨0⟩ := by cbv
  obtain ⟨hplain, hturns⟩ := closestOverridden?_eq_plainOverridden? hreach ⟨1⟩
  obtain ⟨turns, hbound, hend⟩ := hturns _ hm rfl
  rw [hsupertypes, hfound] at hend
  rw [hsupertypes, hedges] at hbound
  exact ⟨hm, by rw [← hplain, hfound], turns, hbound, hend⟩

end Hierarchy

end FieldContracts
