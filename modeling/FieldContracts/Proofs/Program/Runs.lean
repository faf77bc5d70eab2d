import FieldContracts.Program.Building
import FieldContracts.Proofs.Hierarchy.SupertypeEdges

/-!
# A description is built by steps

`reachable_of_ofProgram` says that every hierarchy built from a description is one that steps
reach.  `run_edgesWellFormed` collects what therefore holds of the edges of both.
-/

namespace FieldContracts

theorem bind_eq_ok_iff {ε α β : Type} {x : Except ε α} {f : α → Except ε β} {b : β} :
    x >>= f = .ok b ↔ ∃ a, x = .ok a ∧ f a = .ok b := by
  cases x with
  | ok a => simp [bind, Except.bind]
  | error e => simp [bind, Except.bind]

theorem exists_ok_of_isOk {ε α : Type} {x : Except ε α} (hok : x.isOk = true) :
    ∃ a, x = .ok a := by
  cases x with
  | ok a => exact ⟨a, rfl⟩
  | error e => simp [Except.isOk, Except.toBool] at hok

/-- A loop that succeeds keeps what each of its accepted turns keeps. -/
theorem foldlM_preserves {ε σ α : Type} {P : σ → Prop} {f : σ → α → Except ε σ}
    (hturn : ∀ s a s', P s → f s a = .ok s' → P s') {xs : List α} {s s' : σ}
    (hstart : P s) (hrun : xs.foldlM f s = .ok s') : P s' := by
  induction xs generalizing s with
  | nil =>
      obtain rfl : s = s' := by simpa [pure, Except.pure] using hrun
      exact hstart
  | cons x rest ih =>
      rw [List.foldlM_cons] at hrun
      obtain ⟨next, hnext, hrest⟩ := bind_eq_ok_iff.mp hrun
      exact ih (hturn s x next hstart hnext) hrest

namespace Hierarchy

open SupertypeEdge

variable {h h' : Hierarchy}

theorem Reachable.extendDescribed (hreach : h.Reachable) {c : ClassId} {desc : ClassDesc}
    (hbuild : h.extendDescribed c desc = .ok h') : h'.Reachable := by
  unfold Hierarchy.extendDescribed at hbuild
  cases hsuper : desc.superclass with
  | none =>
      simp only [hsuper, Except.ok.injEq] at hbuild
      exact hbuild ▸ hreach
  | some name =>
      simp only [hsuper] at hbuild
      obtain ⟨s, -, hset⟩ := bind_eq_ok_iff.mp hbuild
      exact hreach.apply (show (Operation.setSuperclass c s).apply h = .ok h' from hset)

theorem Reachable.implementDescribed (hreach : h.Reachable) {c : ClassId} {desc : ClassDesc}
    {name : String} (hbuild : h.implementDescribed c desc name = .ok h') : h'.Reachable := by
  obtain ⟨i, -, hadd⟩ := bind_eq_ok_iff.mp hbuild
  exact hreach.apply (show (Operation.addInterface c i).apply h = .ok h' from hadd)

theorem Reachable.fillClass (hreach : h.Reachable) {desc : ClassDesc}
    (hbuild : h.fillClass desc = .ok h') : h'.Reachable := by
  obtain ⟨c, -, hbuild⟩ := bind_eq_ok_iff.mp hbuild
  obtain ⟨h₁, hextend, hbuild⟩ := bind_eq_ok_iff.mp hbuild
  obtain ⟨h₂, himplement, hbuild⟩ := bind_eq_ok_iff.mp hbuild
  obtain ⟨h₃, hfields, hmethods⟩ := bind_eq_ok_iff.mp hbuild
  have hreach₁ : h₁.Reachable := hreach.extendDescribed hextend
  have hreach₂ : h₂.Reachable :=
    foldlM_preserves (fun _ _ _ hs hadd => hs.implementDescribed hadd) hreach₁ himplement
  have hreach₃ : h₃.Reachable := by
    refine foldlM_preserves (fun s field s' hs hadd => ?_) hreach₂ hfields
    exact hs.apply (show (Operation.addField c field).apply s = .ok s' from hadd)
  refine foldlM_preserves (fun s method s' hs hadd => ?_) hreach₃ hmethods
  exact hs.apply (show (Operation.addMethod c method.toMethodSpec).apply s = .ok s' from hadd)

/-- Every hierarchy built from a description is reachable by steps. -/
theorem reachable_of_ofProgram {p : Program} (hbuild : ofProgram p = .ok h) : h.Reachable := by
  -- Both passes consist of steps: the first adds classes, the second fills them in.
  obtain ⟨registered, hregister, hfill⟩ := bind_eq_ok_iff.mp hbuild
  have hregistered : registered.Reachable := by
    refine foldlM_preserves (fun s desc s' hs hadd => ?_) reachable_empty hregister
    exact hs.apply (show (Operation.addClass desc.name).apply s = .ok s' from hadd)
  exact foldlM_preserves (fun _ _ _ hs hfill => hs.fillClass hfill) hregistered hfill

/-- The edges are those that look-ups in the hierarchy follow, each class starts at most one edge
to a superclass, and no way along the edges returns to where it starts. -/
structure EdgesWellFormed (h : Hierarchy) (edges : List SupertypeEdge) : Prop where
  superclass : ∀ c, (h.superclass? c).toList = uppersOf .superclass c edges
  interfaces : ∀ c, h.interfaces c = uppersOf .interface c edges
  joins_registered : ∀ e ∈ edges, e.lower.index < h.classCount ∧ e.upper.index < h.classCount
  superclass_unique : ∀ c, (uppersOf .superclass c edges).length ≤ 1
  irreflexive : ∀ c, ¬ Relation.TransGen (Joins edges) c c

theorem edgesWellFormed_after (ops : List Operation) :
    (after ops).EdgesWellFormed (edgesAfter ops) where
  superclass := superclass?_after ops
  interfaces := interfaces_after ops
  joins_registered := by
    intro e he
    have hdirect : (after ops).DirectSupertype e.lower e.upper :=
      (directSupertype_after_iff ops).mpr ⟨e, he, rfl, rfl⟩
    have hwf : (after ops).WellFormed := Reachable.wellFormed ⟨ops, rfl⟩
    exact ⟨lt_classCount_of_directSupertype hdirect, hwf.registered _ _ hdirect⟩
  superclass_unique := by
    intro c
    rw [← superclass?_after]
    cases (after ops).superclass? c with
    | none => simp
    | some s => simp
  irreflexive := by
    intro c hcycle
    have hwf : (after ops).WellFormed := Reachable.wellFormed ⟨ops, rfl⟩
    refine hwf.irreflexive c ?_
    exact Relation.TransGen.mono (fun _ _ => (directSupertype_after_iff ops).mpr) c c hcycle

/-- After any run of steps, refused ones included, and in every hierarchy built from a description,
the supertype edges join registered classes, with one superclass for a class and without cycles. -/
theorem run_edgesWellFormed :
    (∀ ops, (after ops).EdgesWellFormed (edgesAfter ops)) ∧
      ∀ p h, ofProgram p = .ok h →
        ∃ ops, after ops = h ∧ h.EdgesWellFormed (edgesAfter ops) := by
  refine ⟨edgesWellFormed_after, fun p h hbuild => ?_⟩
  obtain ⟨ops, rfl⟩ := reachable_of_ofProgram hbuild
  exact ⟨ops, rfl, edgesWellFormed_after ops⟩

/-- A class that implements one interface twice and reaches it again through its superclass. -/
def diamond : Program := ⟨[
  ⟨"Leaf", some "Base", ["Marker", "Marker"], [], []⟩,
  ⟨"Base", none, ["Marker"], [], []⟩,
  ⟨"Marker", none, [], [], []⟩]⟩

theorem run_edgesWellFormed_diamond :
    ∃ h ops, ofProgram diamond = .ok h ∧ after ops = h ∧ h.EdgesWellFormed (edgesAfter ops) := by
  have hbuild : (ofProgram diamond).isOk = true := by cbv
  cases hok : ofProgram diamond with
  | error refusal => simp [hok, Except.isOk, Except.toBool] at hbuild
  | ok h =>
      obtain ⟨ops, hafter, hwf⟩ := run_edgesWellFormed.2 diamond h hok
      exact ⟨h, ops, rfl, hafter, hwf⟩

end Hierarchy

end FieldContracts
