import FieldContracts.Proofs.Hierarchy.Representation
import FieldContracts.Proofs.Hierarchy.Shadowing
import Mathlib

/-!
# Looking up a field, class by class

`LookupState.turn` is one turn of a look-up that asks the class it stands at and then goes on to the
superclass, without a bound on the turns and without a list of classes to avoid.  `exists_visited`
says that it ends, as the depth falls with each turn, and what it answers; the classes that it
visits are the first ones of the sequence `ancestor?`.  `nearestField_iff_first` reads the answer
off that sequence, and `NearestField.congr` says that nothing outside of the sequence counts.
`resolveField_ends_at_nearest` puts these together.
-/

namespace FieldContracts

/-- Where a look-up stands: at a class, with the classes that it has visited before, or at its
end. -/
inductive LookupState where
  | atClass (c : ClassId) (visited : List ClassId)
  | ended (visited : List ClassId) (answer : Option ResolvedField)

/-- One turn: the class answers with a field of its own, or there is no superclass to ask, or the
superclass is asked next. -/
def LookupState.turn (h : Hierarchy) (name : String) : LookupState → LookupState
  | .ended visited answer => .ended visited answer
  | .atClass c visited =>
      match h.declaredField? c name, h.superclass? c with
      | some field, _ => .ended (visited ++ [c]) (some ⟨c, field⟩)
      | none, none => .ended (visited ++ [c]) none
      | none, some s => .atClass s (visited ++ [c])

namespace Hierarchy

variable {h h' : Hierarchy} {a b c d s : ClassId} {i j k : Nat} {name : String}
  {field : FieldDecl} {r : ResolvedField} {visited : List ClassId}

/-! ## The sequence of superclasses -/

/-- The class that is reached from `c` by going on so many times to the superclass. -/
def ancestor? (h : Hierarchy) : ClassId → Nat → Option ClassId
  | c, 0 => some c
  | c, k + 1 => (h.superclass? c).bind fun s => h.ancestor? s k

theorem ancestor?_succ_of_superclass? (hsuper : h.superclass? c = some s) (k : Nat) :
    h.ancestor? c (k + 1) = h.ancestor? s k := by
  rw [ancestor?, hsuper, Option.bind_some]

theorem ancestor?_succ_of_no_superclass (hroot : h.superclass? c = none) (k : Nat) :
    h.ancestor? c (k + 1) = none := by
  rw [ancestor?, hroot, Option.bind_none]

/-- Going on from a class of the sequence stays on the sequence. -/
theorem ancestor?_add (ha : h.ancestor? c i = some a) (k : Nat) :
    h.ancestor? c (i + k) = h.ancestor? a k := by
  induction i generalizing c with
  | zero =>
      rw [ancestor?, Option.some.injEq] at ha
      rw [Nat.zero_add, ha]
  | succ i ih =>
      obtain ⟨s, hsuper, hs⟩ := Option.bind_eq_some_iff.mp ha
      rw [Nat.succ_add_eq_add_succ, Nat.add_succ, ancestor?_succ_of_superclass? hsuper, ih hs]

theorem onChain_of_ancestor? (ha : h.ancestor? c k = some a) : h.OnChain c a := by
  induction k generalizing c with
  | zero => exact Option.some.inj ha ▸ .refl
  | succ k ih =>
      obtain ⟨s, hsuper, hs⟩ := Option.bind_eq_some_iff.mp ha
      exact .head hsuper (ih hs)

/-- No class stands on the sequence twice, as the depth falls along it. -/
theorem WellFormed.ancestor?_ne (hwf : h.WellFormed) (hij : i < j)
    (ha : h.ancestor? c i = some a) : h.ancestor? c j ≠ some a := by
  intro hagain
  obtain ⟨k, rfl⟩ := Nat.exists_eq_add_of_lt hij
  rw [Nat.add_assoc, ancestor?_add ha] at hagain
  obtain ⟨s, hsuper, hs⟩ := Option.bind_eq_some_iff.mp hagain
  have hcycle : h.SuperclassAbove a a := .head' hsuper (onChain_of_ancestor? hs)
  exact hwf.irreflexive a hcycle.strictSupertype

/-- Above a registered class all classes are registered. -/
theorem lt_classCount_of_ancestor? (hreg : h.SupertypesRegistered) (hc : c.index < h.classCount)
    (ha : h.ancestor? c k = some a) : a.index < h.classCount := by
  induction k generalizing c with
  | zero => exact Option.some.inj ha ▸ hc
  | succ k ih =>
      obtain ⟨s, hsuper, hs⟩ := Option.bind_eq_some_iff.mp ha
      exact ih (hreg c s (directSupertype_of_superclass? hsuper)) hs

/-- The sequence depends on nothing but the superclasses of its own classes. -/
theorem ancestor?_congr
    (hsame : ∀ k d, h.ancestor? c k = some d → h'.superclass? d = h.superclass? d) (k : Nat) :
    h'.ancestor? c k = h.ancestor? c k := by
  induction k generalizing c with
  | zero => rfl
  | succ k ih =>
      have hfirst : h'.superclass? c = h.superclass? c := hsame 0 c rfl
      cases hsuper : h.superclass? c with
      | none =>
          rw [ancestor?_succ_of_no_superclass hsuper,
            ancestor?_succ_of_no_superclass (hfirst.trans hsuper)]
      | some s =>
          rw [ancestor?_succ_of_superclass? hsuper,
            ancestor?_succ_of_superclass? (hfirst.trans hsuper)]
          exact ih fun k d hd => hsame (k + 1) d ((ancestor?_succ_of_superclass? hsuper k).trans hd)

/-! ## Turn by turn -/

theorem turn_of_own (hown : h.declaredField? c name = some field) :
    LookupState.turn h name (.atClass c visited) = .ended (visited ++ [c]) (some ⟨c, field⟩) := by
  simp [LookupState.turn, hown]

theorem turn_of_root (hnone : h.declaredField? c name = none) (hroot : h.superclass? c = none) :
    LookupState.turn h name (.atClass c visited) = .ended (visited ++ [c]) none := by
  simp [LookupState.turn, hnone, hroot]

theorem turn_of_superclass? (hnone : h.declaredField? c name = none)
    (hsuper : h.superclass? c = some s) :
    LookupState.turn h name (.atClass c visited) = .atClass s (visited ++ [c]) := by
  simp [LookupState.turn, hnone, hsuper]

theorem resolveField_of_own (hown : h.declaredField? c name = some field) :
    h.resolveField c name = some ⟨c, field⟩ := by
  simp [resolveField, superclassChain, superclassesUpTo, hown]

theorem resolveField_of_root (hnone : h.declaredField? c name = none)
    (hroot : h.superclass? c = none) : h.resolveField c name = none := by
  simp [resolveField, superclassChain, superclassesUpTo, hnone, hroot]

theorem resolveField_of_superclass? (hwf : h.WellFormed) (hnone : h.declaredField? c name = none)
    (hsuper : h.superclass? c = some s) : h.resolveField c name = h.resolveField s name := by
  refine Option.ext fun r => ?_
  rw [resolveField_eq_some_iff hwf, resolveField_eq_some_iff hwf]
  exact nearestField_iff_of_superclass? hnone hsuper

/-- The look-up ends, after one turn for each class that it visits. -/
theorem exists_visited (hwf : h.WellFormed) (c : ClassId) (name : String)
    (before : List ClassId) :
    ∃ visited : List ClassId,
      (LookupState.turn h name)^[visited.length] (.atClass c before) =
        .ended (before ++ visited) (h.resolveField c name) ∧
      ∀ k < visited.length, visited[k]? = h.ancestor? c k := by
  -- No argument of the look-up gets smaller; only the depth of the class that is asked does.
  induction hdepth : h.depth c using Nat.strongRecOn generalizing c before with
  | ind depth ih =>
      subst hdepth
      cases hown : h.declaredField? c name with
      | some field =>
          refine ⟨[c], ?_, by simp [ancestor?]⟩
          rw [List.length_singleton, Function.iterate_one, turn_of_own hown,
            resolveField_of_own hown]
      | none =>
          cases hsuper : h.superclass? c with
          | none =>
              refine ⟨[c], ?_, by simp [ancestor?]⟩
              rw [List.length_singleton, Function.iterate_one, turn_of_root hown hsuper,
                resolveField_of_root hown hsuper]
          | some s =>
              have hlt : h.depth s < h.depth c :=
                hwf.depth_lt (directSupertype_of_superclass? hsuper)
              obtain ⟨above, hend, hplaces⟩ := ih (h.depth s) hlt s (before ++ [c]) rfl
              refine ⟨c :: above, ?_, ?_⟩
              · rw [List.length_cons, Function.iterate_succ_apply, turn_of_superclass? hown hsuper,
                  hend, resolveField_of_superclass? hwf hown hsuper, List.append_assoc,
                  List.singleton_append]
              · intro k hk
                cases k with
                | zero => rfl
                | succ k =>
                    rw [List.getElem?_cons_succ, ancestor?_succ_of_superclass? hsuper]
                    exact hplaces k (Nat.lt_of_succ_lt_succ hk)

/-! ## The classes that are visited -/

/-- The first classes of the sequence are different from each other. -/
theorem WellFormed.nodup_of_places (hwf : h.WellFormed)
    (hplaces : ∀ k < visited.length, visited[k]? = h.ancestor? c k) : visited.Nodup := by
  refine List.nodup_iff_getElem?_ne_getElem?.mpr fun i j hij hj => ?_
  obtain ⟨a, ha⟩ : ∃ a, visited[j]? = some a := ⟨_, List.getElem?_eq_getElem hj⟩
  intro hsame
  rw [ha, hplaces i (hij.trans hj)] at hsame
  rw [hplaces j hj] at ha
  exact hwf.ancestor?_ne hij hsame ha

/-- The first classes of the sequence above a registered class are registered. -/
theorem subset_classIds_of_places (hreg : h.SupertypesRegistered) (hc : c ∈ h.classIds)
    (hplaces : ∀ k < visited.length, visited[k]? = h.ancestor? c k) : visited ⊆ h.classIds := by
  intro a ha
  obtain ⟨k, hk⟩ := List.mem_iff_getElem?.mp ha
  rw [hplaces k (List.getElem?_eq_some_iff.mp hk).1] at hk
  exact mem_classIds.mpr (lt_classCount_of_ancestor? hreg (mem_classIds.mp hc) hk)

/-- Above an unknown class there is nothing. -/
theorem length_le_one_of_places (hc : c ∉ h.classIds)
    (hplaces : ∀ k < visited.length, visited[k]? = h.ancestor? c k) : visited.length ≤ 1 := by
  have hroot : h.superclass? c = none := Option.eq_none_iff_forall_ne_some.mpr fun s hsuper =>
    hc (mem_classIds.mpr (lt_classCount_of_superclass? hsuper))
  by_contra hlong
  have hsecond := hplaces 1 (Nat.not_le.mp hlong)
  rw [ancestor?_succ_of_no_superclass hroot, List.getElem?_eq_none_iff] at hsecond
  exact hlong hsecond

/-! ## The first declaration of the sequence -/

/-- The fields of this name among the members of the class. -/
def fieldsNamed (h : Hierarchy) (c : ClassId) (name : String) : List FieldDecl :=
  ((h.members c).filterMap Member.field?).filter fun field => field.name = name

theorem declaredField?_eq_head? (h : Hierarchy) (c : ClassId) (name : String) :
    h.declaredField? c name = (h.fieldsNamed c name).head? := by
  unfold declaredField? fieldsNamed members
  cases h.class? c with
  | none => rfl
  | some decl => simp [ClassDecl.field?, ClassDecl.fields, List.head?_filter, beq_eq_decide]

theorem declaredField?_eq_none_iff :
    h.declaredField? c name = none ↔ h.fieldsNamed c name = [] := by
  rw [declaredField?_eq_head?, List.head?_eq_none_iff]

/-- A class declares a name at most once. -/
theorem Coherent.length_fieldsNamed_le_one (hco : h.Coherent) (c : ClassId) (name : String) :
    (h.fieldsNamed c name).length ≤ 1 := by
  have hnodup : ((h.fieldsNamed c name).map (·.name)).Nodup :=
    (hco.represented.fields_distinct c).sublist (List.filter_sublist.map _)
  have hnames : (h.fieldsNamed c name).map (·.name) =
      List.replicate (h.fieldsNamed c name).length name := by
    refine List.eq_replicate_iff.mpr ⟨List.length_map _, fun found hfound => ?_⟩
    obtain ⟨field, hfield, rfl⟩ := List.mem_map.mp hfound
    simpa using (List.mem_filter.mp hfield).2
  exact List.nodup_replicate.mp (hnames ▸ hnodup)

theorem Coherent.declaredField?_eq_some_iff (hco : h.Coherent) :
    h.declaredField? c name = some field ↔ h.fieldsNamed c name = [field] := by
  rw [declaredField?_eq_head?]
  have hlength := hco.length_fieldsNamed_le_one c name
  cases hfields : h.fieldsNamed c name with
  | nil => simp
  | cons first others =>
      rw [hfields, List.length_cons] at hlength
      have hothers : others = [] := List.length_eq_zero_iff.mp (by omega)
      simp [hothers]

/-- What a class sees is the first declaration on the sequence of its superclasses. -/
theorem nearestField_iff_first :
    h.NearestField name c r ↔
      ∃ k, h.ancestor? c k = some r.owner ∧ h.declaredField? r.owner name = some r.field ∧
        ∀ j < k, ∀ d, h.ancestor? c j = some d → h.declaredField? d name = none := by
  constructor
  · intro hnear
    induction hnear with
    | own hown => exact ⟨0, rfl, hown, fun j hj => absurd hj (Nat.not_lt_zero j)⟩
    | @inherited c s r hnone hsuper _ ih =>
        obtain ⟨k, howner, hfield, hbefore⟩ := ih
        refine ⟨k + 1, (ancestor?_succ_of_superclass? hsuper k).trans howner, hfield, ?_⟩
        intro j hj d hd
        cases j with
        | zero => exact Option.some.inj hd ▸ hnone
        | succ j =>
            rw [ancestor?_succ_of_superclass? hsuper] at hd
            exact hbefore j (Nat.lt_of_succ_lt_succ hj) d hd
  · rintro ⟨k, howner, hfield, hbefore⟩
    induction k generalizing c with
    | zero =>
        obtain rfl : c = r.owner := Option.some.inj howner
        exact .own hfield
    | succ k ih =>
        obtain ⟨s, hsuper, hs⟩ := Option.bind_eq_some_iff.mp howner
        have hnone : h.declaredField? c name = none := hbefore 0 (Nat.succ_pos k) c rfl
        refine .inherited hnone hsuper (ih hs fun j hj d hd => ?_)
        exact hbefore (j + 1) (Nat.succ_lt_succ hj) d
          ((ancestor?_succ_of_superclass? hsuper j).trans hd)

/-- Nothing is found exactly if no class of the sequence declares the name. -/
theorem resolveField_eq_none_iff (hwf : h.WellFormed) :
    h.resolveField c name = none ↔
      ∀ k d, h.ancestor? c k = some d → h.declaredField? d name = none := by
  constructor
  · intro hnothing k d hd
    refine Option.eq_none_iff_forall_ne_some.mpr fun field hdeclared => ?_
    obtain ⟨r, hnear, -⟩ := exists_nearestField_below (onChain_of_ancestor? hd) hdeclared
    rw [(resolveField_eq_some_iff hwf).mpr hnear] at hnothing
    cases hnothing
  · intro hnowhere
    refine Option.eq_none_iff_forall_ne_some.mpr fun r hfound => ?_
    obtain ⟨k, howner, hfield, -⟩ :=
      nearestField_iff_first.mp ((resolveField_eq_some_iff hwf).mp hfound)
    rw [hnowhere k r.owner howner] at hfield
    cases hfield

/-- What a class sees is seen in every hierarchy that agrees on the classes of the sequence. -/
theorem NearestField.congr
    (hsame : ∀ k d, h.ancestor? c k = some d →
      h'.superclass? d = h.superclass? d ∧ h'.declaredField? d name = h.declaredField? d name)
    (hnear : h.NearestField name c r) : h'.NearestField name c r := by
  induction hnear with
  | @own c field hown => exact .own ((hsame 0 c rfl).2.trans hown)
  | @inherited c s r hnone hsuper _ ih =>
      obtain ⟨hfirst, hfield⟩ := hsame 0 c rfl
      refine .inherited (hfield.trans hnone) (hfirst.trans hsuper) (ih fun k d hd => ?_)
      exact hsame (k + 1) d ((ancestor?_succ_of_superclass? hsuper k).trans hd)

/-- Hierarchies that agree on the classes of the sequence give the same answer. -/
theorem resolveField_congr (hwf : h.WellFormed) (hwf' : h'.WellFormed)
    (hsame : ∀ k d, h.ancestor? c k = some d →
      h'.superclass? d = h.superclass? d ∧ h'.declaredField? d name = h.declaredField? d name) :
    h'.resolveField c name = h.resolveField c name := by
  refine Option.ext fun r => ?_
  rw [resolveField_eq_some_iff hwf', resolveField_eq_some_iff hwf]
  constructor
  · refine NearestField.congr fun k d hd => ?_
    rw [ancestor?_congr fun k d hd => (hsame k d hd).1] at hd
    exact ⟨(hsame k d hd).1.symm, (hsame k d hd).2.symm⟩
  · exact NearestField.congr hsame

/-- The look-up ends: from a registered class it visits registered classes only, none twice and so
no more than there are, and from an unknown one that one alone.  Along the sequence of superclasses
it finds the first class that declares the name, with its only field of that name, and it finds
nothing exactly if no class of the sequence declares it.  What the other classes declare, interfaces
included, has no part in the answer. -/
theorem resolveField_ends_at_nearest (hreach : h.Reachable) (c : ClassId) (name : String) :
    (∃ visited : List ClassId,
      (LookupState.turn h name)^[visited.length] (.atClass c []) =
        .ended visited (h.resolveField c name) ∧
      (∀ k < visited.length, visited[k]? = h.ancestor? c k) ∧ visited.Nodup ∧
      (c ∈ h.classIds → visited ⊆ h.classIds ∧ visited.length ≤ h.classCount) ∧
      (c ∉ h.classIds → visited = [c])) ∧
    (∀ owner field, h.resolveField c name = some ⟨owner, field⟩ ↔
      ∃ k, h.ancestor? c k = some owner ∧ h.fieldsNamed owner name = [field] ∧
        ∀ j < k, ∀ d, h.ancestor? c j = some d → h.fieldsNamed d name = []) ∧
    (h.resolveField c name = none ↔
      ∀ k d, h.ancestor? c k = some d → h.fieldsNamed d name = []) ∧
    ∀ h' : Hierarchy, h'.Reachable →
      (∀ k d, h.ancestor? c k = some d →
        h'.superclass? d = h.superclass? d ∧ h'.fieldsNamed d name = h.fieldsNamed d name) →
      h'.resolveField c name = h.resolveField c name := by
  have hwf : h.WellFormed := hreach.wellFormed
  have hco : h.Coherent := hreach.coherent
  refine ⟨?_, ?_, ?_, ?_⟩
  · obtain ⟨visited, hend, hplaces⟩ := exists_visited hwf c name []
    have hnodup : visited.Nodup := hwf.nodup_of_places hplaces
    refine ⟨visited, hend, hplaces, hnodup, fun hc => ?_, fun hc => ?_⟩
    · have hknown : visited ⊆ h.classIds := subset_classIds_of_places hwf.registered hc hplaces
      exact ⟨hknown, length_le_classCount hnodup hknown⟩
    · have hshort : visited.length ≤ 1 := length_le_one_of_places hc hplaces
      cases visited with
      | nil => cases hend
      | cons first others =>
          obtain rfl : others = [] := List.length_eq_zero_iff.mp (by simpa using hshort)
          rw [Option.some.inj (hplaces 0 (Nat.succ_pos 0))]
  · intro owner field
    rw [resolveField_eq_some_iff hwf, nearestField_iff_first]
    simp only [hco.declaredField?_eq_some_iff, declaredField?_eq_none_iff]
  · rw [resolveField_eq_none_iff hwf]
    simp only [declaredField?_eq_none_iff]
  · intro h' hreach' hsame
    refine resolveField_congr hwf hreach'.wellFormed fun k d hd => ?_
    obtain ⟨hsuper, hfields⟩ := hsame k d hd
    rw [declaredField?_eq_head?, declaredField?_eq_head?, hfields]
    exact ⟨hsuper, rfl⟩

/-- `Banner` sees the static `label` of `Panel`, which hides the one of `Widget`; its interface
declares a `label` as well, and a `title`. -/
def banner : List Operation := [
  .addClass "Widget", .addClass "Panel", .addClass "Banner", .addClass "Titled",
  .addInterface ⟨2⟩ ⟨3⟩, .setSuperclass ⟨2⟩ ⟨1⟩, .setSuperclass ⟨1⟩ ⟨0⟩,
  .addField ⟨3⟩ ⟨"label", false⟩, .addField ⟨3⟩ ⟨"title", false⟩,
  .addField ⟨0⟩ ⟨"label", false⟩, .addField ⟨1⟩ ⟨"label", true⟩]

/-- The same superclasses and the same fields in them, and no interface. -/
def untitledBanner : List Operation := [
  .addClass "Widget", .addClass "Panel", .addClass "Banner",
  .setSuperclass ⟨1⟩ ⟨0⟩, .setSuperclass ⟨2⟩ ⟨1⟩,
  .addField ⟨1⟩ ⟨"label", true⟩, .addField ⟨0⟩ ⟨"label", false⟩]

theorem resolveField_ends_at_nearest_banner :
    (after banner).Reachable ∧ (after untitledBanner).Reachable ∧
      (∃ visited : List ClassId,
        (LookupState.turn (after banner) "label")^[visited.length] (.atClass ⟨2⟩ []) =
          .ended visited (some ⟨⟨1⟩, ⟨"label", true⟩⟩) ∧
        visited.Nodup ∧ visited.length ≤ 4) ∧
      LookupState.turn (after banner) "label" (.atClass ⟨7⟩ []) = .ended [⟨7⟩] none ∧
      (after banner).resolveField ⟨2⟩ "title" = none ∧
      (after untitledBanner).resolveField ⟨2⟩ "label" =
        (after banner).resolveField ⟨2⟩ "label" := by
  have hreach : (after banner).Reachable := ⟨banner, rfl⟩
  have huntitled : (after untitledBanner).Reachable := ⟨untitledBanner, rfl⟩
  have hcount : (after banner).classCount = 4 := by cbv
  have hpanel : (after banner).superclass? ⟨2⟩ = some ⟨1⟩ := by cbv
  have hwidget : (after banner).superclass? ⟨1⟩ = some ⟨0⟩ := by cbv
  have hroot : (after banner).superclass? ⟨0⟩ = none := by cbv
  have hnolabel : (after banner).fieldsNamed ⟨2⟩ "label" = [] := by cbv
  have hlabel : (after banner).fieldsNamed ⟨1⟩ "label" = [⟨"label", true⟩] := by cbv
  have hnothing : (after banner).resolveField ⟨7⟩ "label" = none := by cbv
  -- The sequence from `Banner` on is `Banner`, `Panel` and `Widget`.
  have hsequence : ∀ k d, (after banner).ancestor? ⟨2⟩ k = some d →
      d = ⟨2⟩ ∨ d = ⟨1⟩ ∨ d = ⟨0⟩ := by
    intro k d hd
    obtain _ | _ | _ | k := k
    · exact Or.inl (Option.some.inj hd).symm
    · rw [ancestor?_succ_of_superclass? hpanel, ancestor?] at hd
      exact Or.inr (Or.inl (Option.some.inj hd).symm)
    · rw [ancestor?_succ_of_superclass? hpanel, ancestor?_succ_of_superclass? hwidget,
        ancestor?] at hd
      exact Or.inr (Or.inr (Option.some.inj hd).symm)
    · rw [ancestor?_succ_of_superclass? hpanel, ancestor?_succ_of_superclass? hwidget,
        ancestor?_succ_of_no_superclass hroot] at hd
      cases hd
  obtain ⟨⟨visited, hend, -, hnodup, hlength, -⟩, hfirst, -, hsame⟩ :=
    resolveField_ends_at_nearest hreach ⟨2⟩ "label"
  obtain ⟨-, -, htitle, -⟩ := resolveField_ends_at_nearest hreach ⟨2⟩ "title"
  obtain ⟨⟨alone, hstop, -, -, -, hunknown⟩, -⟩ := resolveField_ends_at_nearest hreach ⟨7⟩ "label"
  have hfound : (after banner).resolveField ⟨2⟩ "label" = some ⟨⟨1⟩, ⟨"label", true⟩⟩ := by
    refine (hfirst ⟨1⟩ ⟨"label", true⟩).mpr ⟨1, ?_, hlabel, fun j hj d hd => ?_⟩
    · exact ancestor?_succ_of_superclass? hpanel 0
    · obtain rfl : j = 0 := Nat.lt_one_iff.mp hj
      exact Option.some.inj hd ▸ hnolabel
  refine ⟨hreach, huntitled, ⟨visited, hfound ▸ hend, hnodup, ?_⟩, ?_, ?_, ?_⟩
  · exact hcount ▸ (hlength (mem_classIds.mpr (by rw [hcount]; decide))).2
  · rw [hunknown (by rw [mem_classIds, hcount]; decide), hnothing] at hstop
    exact hstop
  · refine htitle.mpr fun k d hd => ?_
    rcases hsequence k d hd with rfl | rfl | rfl
    · cbv
    · cbv
    · cbv
  · refine hsame (after untitledBanner) huntitled fun k d hd => ?_
    rcases hsequence k d hd with rfl | rfl | rfl
    · exact ⟨by cbv, by cbv⟩
    · exact ⟨by cbv, by cbv⟩
    · exact ⟨by cbv, by cbv⟩

end Hierarchy

end FieldContracts
