import FieldContracts.Proofs.Hierarchy.Growth
import FieldContracts.Proofs.Program.Layout
import FieldContracts.Proofs.Program.Runs

/-!
# Which descriptions build a hierarchy

`ofProgram_eq_ok_iff` says that a description builds a hierarchy exactly if it is well formed, and
`ofProgram_eq_error` says what a refused description is blamed for.  Accepted turns of the loop over
the classes keep `Underway`, which lists what the classes filled in so far have shown about their
descriptions; in the end it holds of all classes.
-/

namespace FieldContracts

theorem bind_eq_error_iff {ε α β : Type} {x : Except ε α} {f : α → Except ε β} {e : ε} :
    x >>= f = .error e ↔ x = .error e ∨ ∃ a, x = .ok a ∧ f a = .error e := by
  cases x with
  | ok a => simp [bind, Except.bind]
  | error e' => simp [bind, Except.bind]

/-- A loop that fails does so at one of its turns, behind turns that it accepts. -/
theorem exists_turn_of_foldlM_error {ε σ α : Type} {f : σ → α → Except ε σ} {xs : List α} {s : σ}
    {e : ε} (hrun : xs.foldlM f s = .error e) :
    ∃ before x after s', xs = before ++ x :: after ∧ before.foldlM f s = .ok s' ∧
      f s' x = .error e := by
  induction xs generalizing s with
  | nil => simp [pure, Except.pure] at hrun
  | cons x rest ih =>
      rw [List.foldlM_cons, bind_eq_error_iff] at hrun
      rcases hrun with hfail | ⟨next, hnext, hrest⟩
      · exact ⟨[], x, rest, s, rfl, rfl, hfail⟩
      · obtain ⟨before, y, after, s', rfl, hbefore, hfail⟩ := ih hrest
        refine ⟨x :: before, y, after, s', rfl, ?_, hfail⟩
        rw [List.foldlM_cons, hnext]
        exact hbefore

namespace Hierarchy

variable {h h' : Hierarchy} {c : ClassId} {desc : ClassDesc} {name referencedBy : String}
  {refusal : BuildError}

/-- A class of the name `a` lies directly below one of the name `b`. -/
def JoinsNames (h : Hierarchy) (a b : String) : Prop :=
  ∃ c s, h.className? c = some a ∧ h.className? s = some b ∧ h.DirectSupertype c s

theorem GrowsAt.joinsNames (hgrow : h.GrowsAt c h') {a b : String} (hab : h.JoinsNames a b) :
    h'.JoinsNames a b := by
  obtain ⟨d, s, hd, hs, hdirect⟩ := hab
  exact ⟨d, s, (hgrow.className d).trans hd, (hgrow.className s).trans hs,
    hgrow.direct d s hdirect⟩

/-! ## Names -/

theorem resolveClassName_eq_ok_iff (hreach : h.Reachable) :
    h.resolveClassName name referencedBy = .ok c ↔ h.className? c = some name := by
  rw [← classId?_eq_some_iff hreach.coherent.name_unique]
  unfold resolveClassName
  cases h.classId? name with
  | none => simp
  | some d => simp

theorem blamesContents_of_resolveClassName
    (hrefused : h.resolveClassName name referencedBy = .error refusal) :
    refusal.BlamesContents := by
  unfold resolveClassName at hrefused
  cases hfound : h.classId? name with
  | none =>
      simp only [hfound, Except.error.injEq] at hrefused
      exact hrefused ▸ .unknownName name referencedBy
  | some d => simp [hfound] at hrefused

/-! ## The superclass -/

theorem growsAt_of_extendDescribed (hreach : h.Reachable) (hname : h.className? c = some desc.name)
    (hextend : h.extendDescribed c desc = .ok h') :
    h.GrowsAt c h' ∧ ∀ b ∈ desc.superclass, h'.JoinsNames desc.name b := by
  unfold extendDescribed at hextend
  cases hsuper : desc.superclass with
  | none =>
      simp only [hsuper, Except.ok.injEq] at hextend
      exact ⟨hextend ▸ .refl h c, by simp⟩
  | some name =>
      simp only [hsuper] at hextend
      obtain ⟨s, hs, hset⟩ := bind_eq_ok_iff.mp hextend
      have happly : (Operation.setSuperclass c s).apply h = .ok h' := hset
      have hgrow : h.GrowsAt c h' := growsAt_of_apply happly rfl
      refine ⟨hgrow, fun b hb => ?_⟩
      obtain rfl : name = b := by simpa using hb
      refine ⟨c, s, (hgrow.className c).trans hname, ?_, ?_⟩
      · rw [hgrow.className]
        exact (resolveClassName_eq_ok_iff hreach).mp hs
      · exact (directSupertype_of_apply happly).mpr
          (Or.inr ⟨_, List.mem_singleton_self _, rfl, rfl⟩)

theorem blamesContents_of_extendDescribed (hreach : h.Reachable) (hc : c.index < h.classCount)
    (hfree : h.superclass? c = none) (hrefused : h.extendDescribed c desc = .error refusal) :
    refusal.BlamesContents := by
  unfold extendDescribed at hrefused
  cases hsuper : desc.superclass with
  | none => simp [hsuper] at hrefused
  | some name =>
      simp only [hsuper] at hrefused
      rcases bind_eq_error_iff.mp hrefused with hunknown | ⟨s, hs, hset⟩
      · exact blamesContents_of_resolveClassName hunknown
      · have hregistered : s.index < h.classCount :=
          exists_className?_iff.mp ⟨name, (resolveClassName_eq_ok_iff hreach).mp hs⟩
        exact blamesContents_of_setSuperclass hc hregistered hfree hset

/-! ## The interfaces -/

theorem growsAt_of_implementDescribed (hreach : h.Reachable)
    (hname : h.className? c = some desc.name)
    (hadd : h.implementDescribed c desc name = .ok h') :
    h.GrowsAt c h' ∧ h'.JoinsNames desc.name name := by
  obtain ⟨i, hi, hadd⟩ := bind_eq_ok_iff.mp hadd
  have happly : (Operation.addInterface c i).apply h = .ok h' := hadd
  have hgrow : h.GrowsAt c h' := growsAt_of_apply happly rfl
  refine ⟨hgrow, c, i, (hgrow.className c).trans hname, ?_, ?_⟩
  · rw [hgrow.className]
    exact (resolveClassName_eq_ok_iff hreach).mp hi
  · exact (directSupertype_of_apply happly).mpr (Or.inr ⟨_, List.mem_singleton_self _, rfl, rfl⟩)

/-- The loop over the interfaces adds an edge for each of them. -/
theorem growsAt_of_foldlM_implementDescribed (hreach : h.Reachable)
    (hname : h.className? c = some desc.name) {names : List String}
    (hrun : names.foldlM (fun h name => h.implementDescribed c desc name) h = .ok h') :
    h'.Reachable ∧ h.GrowsAt c h' ∧ ∀ b ∈ names, h'.JoinsNames desc.name b := by
  induction names generalizing h with
  | nil =>
      obtain rfl : h = h' := by simpa [pure, Except.pure] using hrun
      exact ⟨hreach, .refl h c, by simp⟩
  | cons name rest ih =>
      rw [List.foldlM_cons] at hrun
      obtain ⟨next, hadd, hrest⟩ := bind_eq_ok_iff.mp hrun
      obtain ⟨hgrow, hjoin⟩ := growsAt_of_implementDescribed hreach hname hadd
      obtain ⟨hreach', hgrow', hjoins⟩ := ih (hreach.implementDescribed hadd)
        ((hgrow.className c).trans hname) hrest
      refine ⟨hreach', hgrow.trans hgrow', fun b hb => ?_⟩
      rcases List.mem_cons.mp hb with rfl | hb
      · exact hgrow'.joinsNames hjoin
      · exact hjoins b hb

theorem blamesContents_of_implementDescribed (hreach : h.Reachable) (hc : c.index < h.classCount)
    (hrefused : h.implementDescribed c desc name = .error refusal) : refusal.BlamesContents := by
  rcases bind_eq_error_iff.mp hrefused with hunknown | ⟨i, hi, hadd⟩
  · exact blamesContents_of_resolveClassName hunknown
  · have hregistered : i.index < h.classCount :=
      exists_className?_iff.mp ⟨name, (resolveClassName_eq_ok_iff hreach).mp hi⟩
    exact blamesContents_of_addInterface hc hregistered hadd

/-! ## The members -/

/-- A class that has taken several fields declares no two fields of one name. -/
theorem fields_nodup_of_foldlM_addField {decl : ClassDecl} (hdecl : h.class? c = some decl)
    (hold : (decl.fields.map (·.name)).Nodup) {fields : List FieldDecl}
    (hrun : fields.foldlM (fun h field => h.addField c field) h = .ok h') :
    ((decl.fields ++ fields).map (·.name)).Nodup := by
  induction fields generalizing h decl with
  | nil => rwa [List.append_nil]
  | cons field rest ih =>
      rw [List.foldlM_cons] at hrun
      obtain ⟨next, hadd, hrest⟩ := bind_eq_ok_iff.mp hrun
      obtain ⟨⟨decl', hdecl', hfree⟩, rfl⟩ := addField_eq_ok_iff.mp hadd
      obtain rfl : decl = decl' := Option.some.inj (hdecl.symm.trans hdecl')
      have hfields := ClassDecl.fields_append_field decl field
      have hnew := ClassDecl.nodup_fields_append hold hfree
      have hall := ih (class?_appendMember_self hdecl (.field field)) (by rwa [hfields]) hrest
      rwa [hfields, List.append_assoc, List.singleton_append] at hall

/-- A loop of steps on one class changes only this class. -/
theorem growsAt_of_foldlM {α : Type} {f : α → Operation} (htarget : ∀ a, (f a).target? = some c)
    (hreach : h.Reachable) {xs : List α}
    (hrun : xs.foldlM (fun h a => (f a).apply h) h = .ok h') : h'.Reachable ∧ h.GrowsAt c h' := by
  refine foldlM_preserves (P := fun s => s.Reachable ∧ h.GrowsAt c s) ?_ ⟨hreach, .refl h c⟩ hrun
  rintro s a s' ⟨hs, hgrow⟩ happly
  exact ⟨hs.apply happly, hgrow.trans (growsAt_of_apply happly (htarget a))⟩

/-! ## One class -/

/-- What a class that is filled in shows about its description. -/
structure Filled (h : Hierarchy) (c : ClassId) (desc : ClassDesc) (h' : Hierarchy) : Prop where
  reachable : h'.Reachable
  growsAt : h.GrowsAt c h'
  joinsNames : ∀ b ∈ desc.supertypes, h'.JoinsNames desc.name b
  fields_nodup : (desc.fields.map (·.name)).Nodup

theorem filled_of_fillClass (hreach : h.Reachable) (hname : h.className? c = some desc.name)
    (hfill : h.fillClass desc = .ok h') : h.Filled c desc h' := by
  obtain ⟨d, hd, hfill⟩ := bind_eq_ok_iff.mp hfill
  obtain rfl : d = c := hreach.coherent.name_unique d c desc.name
    ((resolveClassName_eq_ok_iff hreach).mp hd) hname
  obtain ⟨h₁, hextend, hfill⟩ := bind_eq_ok_iff.mp hfill
  obtain ⟨h₂, himplement, hfill⟩ := bind_eq_ok_iff.mp hfill
  obtain ⟨h₃, hfields, hmethods⟩ := bind_eq_ok_iff.mp hfill
  obtain ⟨hgrow₁, hsuper⟩ := growsAt_of_extendDescribed hreach hname hextend
  have hreach₁ : h₁.Reachable := hreach.extendDescribed hextend
  obtain ⟨hreach₂, hgrow₂, hinterfaces⟩ := growsAt_of_foldlM_implementDescribed hreach₁
    ((hgrow₁.className d).trans hname) himplement
  obtain ⟨hreach₃, hgrow₃⟩ := growsAt_of_foldlM (f := .addField d) (fun _ => rfl) hreach₂ hfields
  obtain ⟨hreach₄, hgrow₄⟩ := growsAt_of_foldlM
    (f := fun method : MethodDesc => .addMethod d method.toMethodSpec) (fun _ => rfl) hreach₃
    hmethods
  have hlater : h₂.GrowsAt d h' := hgrow₃.trans hgrow₄
  refine ⟨hreach₄, hgrow₁.trans (hgrow₂.trans hlater), fun b hb => ?_, ?_⟩
  · rcases List.mem_append.mp hb with hb | hb
    · exact (hgrow₂.trans hlater).joinsNames (hsuper b (Option.mem_toList.mp hb))
    · exact hlater.joinsNames (hinterfaces b hb)
  · obtain ⟨decl, hdecl⟩ : ∃ decl, h₂.class? d = some decl := by
      have hname₂ : h₂.className? d = some desc.name :=
        ((hgrow₁.trans hgrow₂).className d).trans hname
      obtain ⟨decl, hdecl, -⟩ := Option.map_eq_some_iff.mp hname₂
      exact ⟨decl, hdecl⟩
    have hall := fields_nodup_of_foldlM_addField hdecl
      (hreach₂.coherent.field_unique d decl hdecl) hfields
    rw [List.map_append, List.nodup_append] at hall
    exact hall.2.1

/-- A class that has no superclass yet is refused only for what it is described with. -/
theorem blamesContents_of_fillClass (hreach : h.Reachable) (hname : h.className? c = some desc.name)
    (hfree : h.superclass? c = none) (hrefused : h.fillClass desc = .error refusal) :
    refusal.BlamesContents := by
  have hc : c.index < h.classCount := exists_className?_iff.mp ⟨_, hname⟩
  rcases bind_eq_error_iff.mp hrefused with hunknown | ⟨d, hd, hrefused⟩
  · exact blamesContents_of_resolveClassName hunknown
  obtain rfl : d = c := hreach.coherent.name_unique d c desc.name
    ((resolveClassName_eq_ok_iff hreach).mp hd) hname
  rcases bind_eq_error_iff.mp hrefused with hextend | ⟨h₁, hextend, hrefused⟩
  · exact blamesContents_of_extendDescribed hreach hc hfree hextend
  have hreach₁ : h₁.Reachable := hreach.extendDescribed hextend
  have hgrow₁ : h.GrowsAt d h₁ := (growsAt_of_extendDescribed hreach hname hextend).1
  have hname₁ : h₁.className? d = some desc.name := (hgrow₁.className d).trans hname
  rcases bind_eq_error_iff.mp hrefused with himplement | ⟨h₂, himplement, hrefused⟩
  · obtain ⟨before, name, after, s, -, hbefore, hfail⟩ := exists_turn_of_foldlM_error himplement
    obtain ⟨hs, hgrow, -⟩ := growsAt_of_foldlM_implementDescribed hreach₁ hname₁ hbefore
    exact blamesContents_of_implementDescribed hs
      ((hgrow₁.trans hgrow).classCount d |>.mpr hc) hfail
  obtain ⟨hreach₂, hgrow₂, -⟩ := growsAt_of_foldlM_implementDescribed hreach₁ hname₁ himplement
  have hgrow : h.GrowsAt d h₂ := hgrow₁.trans hgrow₂
  rcases bind_eq_error_iff.mp hrefused with hfields | ⟨h₃, hfields, hmethods⟩
  · obtain ⟨before, field, after, s, -, hbefore, hfail⟩ := exists_turn_of_foldlM_error hfields
    obtain ⟨hs, hgrow'⟩ := growsAt_of_foldlM (f := .addField d) (fun _ => rfl) hreach₂ hbefore
    exact blamesContents_of_addField ((hgrow.trans hgrow').classCount d |>.mpr hc) hfail
  obtain ⟨hreach₃, hgrow₃⟩ := growsAt_of_foldlM (f := .addField d) (fun _ => rfl) hreach₂ hfields
  obtain ⟨before, method, after, s, -, hbefore, hfail⟩ := exists_turn_of_foldlM_error hmethods
  obtain ⟨hs, hgrow'⟩ := growsAt_of_foldlM
    (f := fun method : MethodDesc => .addMethod d method.toMethodSpec) (fun _ => rfl) hreach₃
    hbefore
  exact absurd hfail
    (addMethod_ne_error (((hgrow.trans hgrow₃).trans hgrow').classCount d |>.mpr hc) _)

end Hierarchy

namespace Program

open Hierarchy

variable {p : Program} {h h' : Hierarchy} {desc : ClassDesc} {k : Nat} {refusal : BuildError}

/-! ## The loop over the classes -/

/-- All classes are registered, and the first `k` have been filled in as described. -/
structure Underway (p : Program) (k : Nat) (h : Hierarchy) : Prop where
  reachable : h.Reachable
  className : ∀ c, h.className? c = p.classNames[c.index]?
  free : ∀ c : ClassId, k ≤ c.index → h.superclass? c = none
  joinsNames : ∀ desc ∈ p.classes.take k, ∀ b ∈ desc.supertypes, h.JoinsNames desc.name b
  fields_nodup : ∀ desc ∈ p.classes.take k, (desc.fields.map (·.name)).Nodup

namespace Underway

theorem className_of_getElem? (hon : p.Underway k h) (hdesc : p.classes[k]? = some desc) :
    h.className? ⟨k⟩ = some desc.name := by
  rw [hon.className, classNames, List.getElem?_map, hdesc]
  rfl

/-- The turn of the loop. -/
theorem fillClass (hon : p.Underway k h) (hdesc : p.classes[k]? = some desc)
    (hfill : h.fillClass desc = .ok h') : p.Underway (k + 1) h' := by
  have hfilled : h.Filled ⟨k⟩ desc h' :=
    filled_of_fillClass hon.reachable (hon.className_of_getElem? hdesc) hfill
  have hsplit : p.classes.take (k + 1) = p.classes.take k ++ [desc] := by
    rw [List.take_add_one, hdesc, Option.toList_some]
  constructor
  · exact hfilled.reachable
  · intro c
    rw [hfilled.growsAt.className, hon.className]
  · intro c hc
    have hne : c ≠ ⟨k⟩ := fun heq => by
      rw [heq] at hc
      exact Nat.not_succ_le_self k hc
    rw [hfilled.growsAt.superclass? hne]
    exact hon.free c (Nat.le_of_succ_le hc)
  · intro other hother b hb
    rw [hsplit] at hother
    rcases List.mem_append.mp hother with hother | hother
    · exact hfilled.growsAt.joinsNames (hon.joinsNames other hother b hb)
    · obtain rfl := List.mem_singleton.mp hother
      exact hfilled.joinsNames b hb
  · intro other hother
    rw [hsplit] at hother
    rcases List.mem_append.mp hother with hother | hother
    · exact hon.fields_nodup other hother
    · obtain rfl := List.mem_singleton.mp hother
      exact hfilled.fields_nodup

theorem blamesContents (hon : p.Underway k h) (hdesc : p.classes[k]? = some desc)
    (hrefused : h.fillClass desc = .error refusal) : refusal.BlamesContents :=
  blamesContents_of_fillClass hon.reachable (hon.className_of_getElem? hdesc)
    (hon.free ⟨k⟩ (Nat.le_refl k)) hrefused

/-- Accepted turns for the first classes lead that far. -/
theorem foldlM_fillClass (hstart : p.Underway 0 h) {before after : List ClassDesc}
    (hclasses : p.classes = before ++ after) (hrun : before.foldlM Hierarchy.fillClass h = .ok h') :
    p.Underway before.length h' := by
  induction before using List.reverseRecOn generalizing after h' with
  | nil =>
      obtain rfl : h = h' := by simpa [pure, Except.pure] using hrun
      exact hstart
  | append_singleton before desc ih =>
      rw [List.foldlM_append] at hrun
      obtain ⟨s, hbefore, hlast⟩ := bind_eq_ok_iff.mp hrun
      obtain ⟨s', hfill, hend⟩ := bind_eq_ok_iff.mp ((List.foldlM_cons ..).symm.trans hlast)
      obtain rfl : s' = h' := by simpa [pure, Except.pure] using hend
      have hon : p.Underway before.length s :=
        ih (hclasses.trans (List.append_assoc ..)) hbefore
      have hdesc : p.classes[before.length]? = some desc := by
        rw [hclasses, List.append_assoc, List.getElem?_append_right (Nat.le_refl _)]
        simp
      rw [List.length_append]
      exact hon.fillClass hdesc hfill

/-- A way upward in the description is one in the hierarchy, once all classes are filled in. -/
theorem strictSupertype_of_transGen_below (hon : p.Underway p.classes.length h) {a b : String}
    (hway : Relation.TransGen p.Below a b) :
    ∃ c s, h.className? c = some a ∧ h.className? s = some b ∧ h.StrictSupertype c s := by
  have hjoins : ∀ {a b : String}, p.Below a b → h.JoinsNames a b := by
    rintro a b ⟨desc, hdesc, rfl, hb⟩
    exact hon.joinsNames desc (List.take_length.symm ▸ hdesc) b hb
  induction hway with
  | single hlast =>
      obtain ⟨c, s, hc, hs, hdirect⟩ := hjoins hlast
      exact ⟨c, s, hc, hs, .single hdirect⟩
  | tail _ hlast ih =>
      obtain ⟨c, s, hc, hs, habove⟩ := ih
      obtain ⟨s', t, hs', ht, hdirect⟩ := hjoins hlast
      obtain rfl : s = s' := hon.reachable.coherent.name_unique s s' _ hs hs'
      exact ⟨c, t, hc, ht, .tail habove hdirect⟩

/-- A description of which all classes have been filled in is well formed. -/
theorem wellFormed (hon : p.Underway p.classes.length h) (hnames : p.classNames.Nodup) :
    p.WellFormed where
  names_nodup := hnames
  known := by
    intro a b hbelow
    obtain ⟨-, s, -, hs, -⟩ := hon.strictSupertype_of_transGen_below (.single hbelow)
    rw [hon.className] at hs
    exact List.mem_of_getElem? hs
  fields_nodup := fun desc hdesc => hon.fields_nodup desc (List.take_length.symm ▸ hdesc)
  acyclic := by
    intro a hcycle
    obtain ⟨c, s, hc, hs, habove⟩ := hon.strictSupertype_of_transGen_below hcycle
    obtain rfl : c = s := hon.reachable.coherent.name_unique c s a hc hs
    exact hon.reachable.wellFormed.irreflexive c habove

end Underway

/-! ## Registering the classes -/

theorem underway_of_registerClasses (hnames : p.classNames.Nodup)
    (hregister : registerClasses p.classes = .ok h) : p.Underway 0 h := by
  obtain rfl : p.filled 0 = h :=
    Except.ok.inj ((registerClasses_eq_ok hnames).symm.trans hregister)
  constructor
  · refine foldlM_preserves (fun s desc s' hs hadd => ?_) reachable_empty hregister
    exact hs.apply (show (Operation.addClass desc.name).apply s = .ok s' from hadd)
  · exact className?_filled 0
  · intro c _
    rw [superclass?, registered?_filled]
    cases p.classes[c.index]? with
    | none => rfl
    | some desc => rfl
  · simp
  · simp

/-- Classes of which two share a name are not registered. -/
theorem registerClasses_eq_error (hnames : ¬ p.classNames.Nodup) :
    ∃ name, registerClasses p.classes = .error (.duplicateClassName name) := by
  obtain ⟨classes⟩ := p
  induction classes using List.reverseRecOn with
  | nil => exact absurd List.nodup_nil hnames
  | append_singleton rest desc ih =>
      have hsplit : registerClasses (rest ++ [desc]) =
          registerClasses rest >>= fun h => [desc].foldlM (fun h desc => h.addClass desc.name) h :=
        List.foldlM_append ..
      by_cases hrest : (classNames ⟨rest⟩).Nodup
      · -- The names before this one are distinct, so it is this one that is repeated.
        have hmem : desc.name ∈ classNames ⟨rest⟩ := by
          by_contra hnew
          refine hnames ?_
          show ((rest ++ [desc]).map (·.name)).Nodup
          rw [List.map_append, List.nodup_append]
          refine ⟨hrest, by simp, fun x hx y hy heq => hnew ?_⟩
          rw [List.map_singleton, List.mem_singleton] at hy
          exact hy ▸ heq ▸ hx
        obtain ⟨i, hi⟩ := List.getElem?_of_mem hmem
        have htaken : ((filled ⟨rest⟩ 0).classId? desc.name).isSome = true := by
          rw [Option.isSome_iff_ne_none]
          intro hfree
          exact className?_ne_of_classId?_eq_none (d := ⟨i⟩) hfree
            ((className?_filled 0 ⟨i⟩).trans hi)
        refine ⟨desc.name, ?_⟩
        rw [hsplit, registerClasses_eq_ok (p := ⟨rest⟩) hrest]
        show ([desc].foldlM (fun h desc => h.addClass desc.name) (filled ⟨rest⟩ 0)) = _
        rw [List.foldlM_cons, addClass, if_pos htaken]
        rfl
      · obtain ⟨name, herror⟩ := ih hrest
        refine ⟨name, ?_⟩
        rw [hsplit, herror]
        rfl

/-! ## Building -/

/-- A description builds a hierarchy exactly if it is well formed. -/
theorem ofProgram_eq_ok_iff : ofProgram p = .ok h ↔ p.WellFormed ∧ h = p.hierarchy := by
  constructor
  · intro hbuild
    obtain ⟨registered, hregister, hfill⟩ := bind_eq_ok_iff.mp hbuild
    have hnames : p.classNames.Nodup := by
      by_contra hshared
      obtain ⟨name, herror⟩ := registerClasses_eq_error hshared
      rw [herror] at hregister
      simp at hregister
    have hon : p.Underway p.classes.length h :=
      (underway_of_registerClasses hnames hregister).foldlM_fillClass
        (List.append_nil _).symm hfill
    have hwf : p.WellFormed := hon.wellFormed hnames
    exact ⟨hwf, Except.ok.inj (hbuild.symm.trans (ofProgram_eq_ok hwf))⟩
  · rintro ⟨hwf, rfl⟩
    exact ofProgram_eq_ok hwf

/-- A description is refused for a repeated name if there is one, and otherwise for what it says of
its classes. -/
theorem ofProgram_eq_error (hbuild : ofProgram p = .error refusal) :
    (¬ p.classNames.Nodup ∧ ∃ name, refusal = .duplicateClassName name) ∨
      (p.classNames.Nodup ∧ refusal.BlamesContents) := by
  by_cases hnames : p.classNames.Nodup
  · refine Or.inr ⟨hnames, ?_⟩
    rcases bind_eq_error_iff.mp hbuild with hregister | ⟨registered, hregister, hfill⟩
    · rw [registerClasses_eq_ok hnames] at hregister
      simp at hregister
    · obtain ⟨before, desc, after, s, hclasses, hbefore, hfail⟩ :=
        exists_turn_of_foldlM_error hfill
      have hon : p.Underway before.length s :=
        (underway_of_registerClasses hnames hregister).foldlM_fillClass hclasses hbefore
      refine hon.blamesContents ?_ hfail
      rw [hclasses, List.getElem?_append_right (Nat.le_refl _)]
      simp
  · obtain ⟨name, hregister⟩ := registerClasses_eq_error hnames
    have herror : ofProgram p = .error (.duplicateClassName name) := by
      unfold ofProgram
      rw [hregister]
      rfl
    exact Or.inl ⟨hnames, name, Except.error.inj (hbuild.symm.trans herror)⟩

/-- Exactly the well-formed descriptions build a hierarchy.  A refusal names a repeated class name
exactly if there is one, and never an unknown identity or a second superclass. -/
theorem accepted_iff_wellFormed (p : Program) :
    ((∃ h, ofProgram p = .ok h) ↔ p.WellFormed) ∧
      ∀ refusal, ofProgram p = .error refusal →
        ((∃ name, refusal = .duplicateClassName name) ↔ ¬ p.classNames.Nodup) ∧
          (∀ c, refusal ≠ .classNotFound c) ∧ ∀ name, refusal ≠ .superclassAlreadySet name := by
  refine ⟨?_, fun refusal hbuild => ?_⟩
  · constructor
    · rintro ⟨h, hbuild⟩
      exact (ofProgram_eq_ok_iff.mp hbuild).1
    · exact fun hwf => ⟨p.hierarchy, ofProgram_eq_ok hwf⟩
  · rcases ofProgram_eq_error hbuild with ⟨hshared, name, rfl⟩ | ⟨hnames, hblames⟩
    · exact ⟨⟨fun _ => hshared, fun _ => ⟨name, rfl⟩⟩, by simp, by simp⟩
    · have hno : ¬ ∃ name, refusal = .duplicateClassName name := by
        rintro ⟨name, rfl⟩
        cases hblames
      refine ⟨⟨fun hdup => absurd hdup hno, fun hshared => absurd hnames hshared⟩, ?_, ?_⟩
      · rintro c rfl
        cases hblames
      · rintro name rfl
        cases hblames

/-- Two classes that lie above each other, one by extending and one by implementing. -/
def crossed : Program := ⟨[⟨"A", some "B", [], [], []⟩, ⟨"B", none, ["A"], [], []⟩]⟩

theorem accepted_iff_wellFormed_crossed :
    (ofProgram crossed = .error (.inheritanceCycle "B" "A") ∧ ¬ crossed.WellFormed ∧
      crossed.classNames.Nodup) ∧ diamond.WellFormed := by
  have hbuild : ofProgram crossed = .error (.inheritanceCycle "B" "A") := by cbv
  have hdiamond : (ofProgram diamond).isOk = true := by cbv
  obtain ⟨haccepted, hrefused⟩ := accepted_iff_wellFormed crossed
  refine ⟨⟨hbuild, fun hwf => ?_, ?_⟩, ?_⟩
  · obtain ⟨h, hok⟩ := haccepted.mpr hwf
    rw [hbuild] at hok
    cases hok
  · by_contra hshared
    obtain ⟨name, hname⟩ := (hrefused _ hbuild).1.mpr hshared
    cases hname
  · refine (accepted_iff_wellFormed diamond).1.mp ?_
    cases hok : ofProgram diamond with
    | error refusal => simp [hok, Except.isOk, Except.toBool] at hdiamond
    | ok h => exact ⟨h, rfl⟩

end Program

end FieldContracts
