import FieldContracts.Proofs.Contract.Declaration
import Mathlib

/-!
# The fault that is reported

`EntryFault` says what is wrong with a single entry of a declaration, with fields as the class sees
them, and `FirstFault` that it is the first fault of a list of entries.  `validate_reports_firstFault`
says that a declaration is refused for exactly this fault, and that one without a fault is read entry
by entry.
-/

namespace FieldContracts

/-! ## The first failure of a loop -/

/-- Some element of the list has the property `P`, and every one before it has the property `Q`. -/
def FirstAmong {α : Type} (P Q : α → Prop) (xs : List α) : Prop :=
  ∃ before x after, xs = before ++ x :: after ∧ P x ∧ ∀ y ∈ before, Q y

theorem firstAmong_cons {α : Type} {P Q : α → Prop} {x : α} {rest : List α} :
    FirstAmong P Q (x :: rest) ↔ P x ∨ (Q x ∧ FirstAmong P Q rest) := by
  constructor
  · rintro ⟨before, y, after, hsplit, hy, hbefore⟩
    cases before with
    | nil =>
        obtain ⟨rfl, -⟩ := List.cons.inj hsplit
        exact Or.inl hy
    | cons z front =>
        obtain ⟨rfl, hrest⟩ := List.cons.inj hsplit
        obtain ⟨hx, hfront⟩ := List.forall_mem_cons.mp hbefore
        exact Or.inr ⟨hx, front, y, after, hrest, hy, hfront⟩
  · rintro (hx | ⟨hx, before, y, after, rfl, hy, hbefore⟩)
    · exact ⟨[], x, rest, rfl, hx, by simp⟩
    · exact ⟨x :: before, y, after, rfl, hy, List.forall_mem_cons.mpr ⟨hx, hbefore⟩⟩

/-- A loop ends in the error of the first element that has one. -/
theorem mapM_eq_error_iff {ε α β : Type} {f : α → Except ε β} {xs : List α} {error : ε} :
    xs.mapM f = .error error ↔
      FirstAmong (fun x => f x = .error error) (fun x => ∃ y, f x = .ok y) xs := by
  induction xs with
  | nil => simp [FirstAmong, pure, Except.pure]
  | cons x rest ih =>
      rw [List.mapM_cons, firstAmong_cons, ← ih]
      cases hx : f x with
      | error cause => simp [bind, Except.bind]
      | ok value =>
          cases hrest : rest.mapM f with
          | error cause => simp [bind, Except.bind]
          | ok values => simp [bind, Except.bind, pure, Except.pure]

namespace Hierarchy

variable {h : Hierarchy} {c : ClassId} {entry f : String} {raw fields : NameSet}
  {error : DeclarationError}

/-! ## The fault of an entry -/

/-- The entry is the simple name `f`, bare or after `this.`. -/
def Spells (entry f : String) : Prop :=
  (entry = f ∨ entry = "this." ++ f) ∧ f ≠ "" ∧ '.' ∉ f.toList

/-- What is wrong with an entry of a declaration in class `c`.  A static field after `this.` comes
first, and the bare name of a static field is never at fault; any other entry has to spell a simple
name, and the class has to see a field of this name. -/
inductive EntryFault (h : Hierarchy) (c : ClassId) : (entry : String) → DeclarationError → Prop
  | staticViaReceiver {s : String} (hstatic : h.NamesStatic c s) :
      EntryFault h c ("this." ++ s) (.staticViaReceiver s)
  | unsupportedPath {entry : String} (hreceiver : ∀ s, entry = "this." ++ s → ¬ h.NamesStatic c s)
      (hstatic : ¬ h.NamesStatic c entry) (hform : ∀ f, ¬ Spells entry f) :
      EntryFault h c entry (.unsupportedPath entry)
  | fieldNotFound {entry f : String}
      (hreceiver : ∀ s, entry = "this." ++ s → ¬ h.NamesStatic c s)
      (hstatic : ¬ h.NamesStatic c entry) (hform : Spells entry f)
      (hunknown : ¬ ∃ r, h.NearestField f c r) :
      EntryFault h c entry (.fieldNotFound f ((h.className? c).getD c.label))

theorem ofEntry?_eq_none_iff :
    FieldReference.ofEntry? entry = none ↔ ∀ f, ¬ Spells entry f := by
  rw [← Option.map_eq_none_iff (f := FieldReference.name), Option.eq_none_iff_forall_ne_some]
  exact forall_congr' fun f => not_congr name_ofEntry?_eq_some_iff

theorem plainField_eq_error_iff (hwf : h.WellFormed) :
    h.plainField c entry = .error error ↔
      ((∀ f, ¬ Spells entry f) ∧ error = .unsupportedPath entry) ∨
        ∃ f, Spells entry f ∧ (¬ ∃ r, h.NearestField f c r) ∧
          error = .fieldNotFound f ((h.className? c).getD c.label) := by
  unfold plainField
  cases hread : FieldReference.ofEntry? entry with
  | none =>
      have hform : ∀ f, ¬ Spells entry f := ofEntry?_eq_none_iff.mp hread
      simp [hform, eq_comm]
  | some reference =>
      have hform : ∀ f, Spells entry f ↔ reference.name = f := fun f => by
        rw [Spells, ← name_ofEntry?_eq_some_iff, hread, Option.map_some, Option.some.injEq]
      simp only [hform, ← resolveField_isSome_iff hwf, forall_eq', false_and, false_or,
        exists_eq_left']
      by_cases hknown : (h.resolveField c reference.name).isSome = true
      · simp [hknown]
      · simp [hknown, eq_comm]

/-- Reading an entry fails for exactly the fault that it has. -/
theorem entryField_eq_error_iff (hwf : h.WellFormed) :
    h.entryField c entry = .error error ↔ h.EntryFault c entry error := by
  unfold entryField
  cases hfilter : (afterThis? entry).filter (h.resolvesToStatic c) with
  | some s =>
      obtain ⟨hafter, hresolves⟩ := Option.filter_eq_some_iff.mp hfilter
      have hstatic : h.NamesStatic c s := (resolvesToStatic_iff hwf).mp hresolves
      have hentry : entry = "this." ++ s := afterThis?_eq_some_iff.mp hafter
      show Except.error (DeclarationError.staticViaReceiver s) = .error error ↔ _
      constructor
      · intro hsame
        rw [← Except.error.inj hsame, hentry]
        exact .staticViaReceiver hstatic
      · intro hfault
        cases hfault with
        | @staticViaReceiver s' _ =>
            have hother : afterThis? ("this." ++ s') = some s' := afterThis?_eq_some_iff.mpr rfl
            rw [Option.some.inj (hafter.symm.trans hother)]
        | unsupportedPath hreceiver _ _ => exact absurd hstatic (hreceiver s hentry)
        | fieldNotFound hreceiver _ _ _ => exact absurd hstatic (hreceiver s hentry)
  | none =>
      have hreceiver := (filter_afterThis?_eq_none_iff hwf).mp hfilter
      show (if h.resolvesToStatic c entry = true then Except.ok entry
        else h.plainField c entry) = .error error ↔ _
      by_cases hstatic : h.NamesStatic c entry
      · rw [if_pos ((resolvesToStatic_iff hwf).mpr hstatic)]
        refine iff_of_false nofun fun hfault => ?_
        cases hfault with
        | staticViaReceiver hafter => exact hreceiver _ rfl hafter
        | unsupportedPath _ hnot _ => exact hnot hstatic
        | fieldNotFound _ hnot _ _ => exact hnot hstatic
      · rw [if_neg fun htrue => hstatic ((resolvesToStatic_iff hwf).mp htrue),
          plainField_eq_error_iff hwf]
        constructor
        · rintro (⟨hform, rfl⟩ | ⟨f, hform, hunknown, rfl⟩)
          · exact .unsupportedPath hreceiver hstatic hform
          · exact .fieldNotFound hreceiver hstatic hform hunknown
        · intro hfault
          cases hfault with
          | staticViaReceiver hafter => exact absurd hafter (hreceiver _ rfl)
          | unsupportedPath _ _ hform => exact Or.inl ⟨hform, rfl⟩
          | fieldNotFound _ _ hform hunknown => exact Or.inr ⟨_, hform, hunknown, rfl⟩

/-- An entry is read as the field that it names exactly if it has no fault. -/
theorem entryField_eq_ok_iff_faultless (hwf : h.WellFormed) :
    h.entryField c entry = .ok f ↔
      (∀ error, ¬ h.EntryFault c entry error) ∧ h.EntryNames c entry f := by
  simp only [← entryField_eq_error_iff hwf]
  constructor
  · intro hok
    exact ⟨fun error herror => (by rw [hok] at herror; cases herror),
      ((entryField_eq_ok_iff hwf).mp hok).2⟩
  · rintro ⟨hfaultless, hnames⟩
    refine (entryField_eq_ok_iff hwf).mpr ⟨fun s hs hstatic => ?_, hnames⟩
    refine hfaultless (.staticViaReceiver s) ((entryField_eq_error_iff hwf).mpr ?_)
    rw [hs]
    exact .staticViaReceiver hstatic

theorem exists_entryField_eq_ok_iff (hwf : h.WellFormed) :
    (∃ f, h.entryField c entry = .ok f) ↔ ∀ error, ¬ h.EntryFault c entry error := by
  simp only [← entryField_eq_error_iff hwf]
  cases h.entryField c entry with
  | ok f => simp
  | error cause => simp

/-- A field that an entry without fault does not name as a static one is a field of the instance. -/
theorem EntryNames.instance_of_not_static (hnames : h.EntryNames c entry f)
    (hfaultless : ∀ error, ¬ h.EntryFault c entry error) (hnot : ¬ h.NamesStatic c entry) :
    ∃ r, h.NearestField f c r ∧ r.field.isStatic = false := by
  cases hnames with
  | static hstatic => exact absurd hstatic hnot
  | plain _ hform _ _ hknown =>
      obtain ⟨r, hnear⟩ := hknown
      refine ⟨r, hnear, Bool.eq_false_iff.mpr fun hstatic => ?_⟩
      rcases hform with rfl | rfl
      · exact hnot ⟨r, hnear, hstatic⟩
      · exact hfaultless _ (.staticViaReceiver ⟨r, hnear, hstatic⟩)

/-! ## Whole declarations -/

/-- The first of the entries that are at fault has this fault. -/
def FirstFault (h : Hierarchy) (c : ClassId) (entries : List String) (error : DeclarationError) :
    Prop :=
  FirstAmong (fun entry => h.EntryFault c entry error)
    (fun entry => ∀ error', ¬ h.EntryFault c entry error') entries

theorem firstFault_iff_mapM (hwf : h.WellFormed) :
    h.FirstFault c raw.toList error ↔ raw.toList.mapM (h.entryField c) = .error error := by
  rw [mapM_eq_error_iff, FirstFault]
  simp only [entryField_eq_error_iff hwf, exists_entryField_eq_ok_iff hwf]

/-- Whatever is wrong with an entry, it is not that there is none. -/
theorem EntryFault.ne_emptyContract (hfault : h.EntryFault c entry error) :
    error ≠ .emptyContract := by
  cases hfault with
  | staticViaReceiver _ => exact nofun
  | unsupportedPath _ _ _ => exact nofun
  | fieldNotFound _ _ _ _ => exact nofun

/-- A declaration is refused if it lists nothing, and otherwise for the first fault. -/
theorem validate_eq_error_iff (hwf : h.WellFormed) :
    h.validate c raw = .error error ↔
      (raw.toList = [] ∧ error = .emptyContract) ∨ h.FirstFault c raw.toList error := by
  rw [firstFault_iff_mapM hwf, validate, NameSet.isEmpty]
  cases raw.toList with
  | nil => simp [pure, Except.pure, eq_comm]
  | cons entry rest =>
      simp only [List.isEmpty_cons, Bool.false_eq_true, if_false, reduceCtorEq, false_and,
        false_or]
      cases (entry :: rest).mapM (h.entryField c) with
      | ok names => simp [Except.map]
      | error cause => simp [Except.map]

/-- A declaration that lists some entry is read entry by entry if none is at fault. -/
theorem validate_eq_ok_iff_faultless (hwf : h.WellFormed) :
    h.validate c raw = .ok fields ↔
      raw.isEmpty = false ∧ (∀ entry ∈ raw, ∀ error, ¬ h.EntryFault c entry error) ∧
        ∃ names, List.Forall₂ (h.EntryNames c) raw.toList names ∧
          fields = NameSet.ofList names := by
  have hread : ∀ names : List String, raw.toList.map (h.entryField c) = names.map .ok ↔
      (∀ entry ∈ raw, ∀ error, ¬ h.EntryFault c entry error) ∧
        List.Forall₂ (h.EntryNames c) raw.toList names := by
    intro names
    rw [← List.forall₂_eq_eq_eq, List.forall₂_map_left_iff, List.forall₂_map_right_iff]
    simp only [entryField_eq_ok_iff_faultless hwf]
    exact List.forall₂_and_left _ _
  rw [validate_eq_ok_iff]
  simp only [hread, and_assoc, exists_and_left]

/-- An empty declaration is refused as such.  Any other one is refused for the first fault of its
entries, whatever follows it, and if no entry is at fault, it is read entry by entry, each field being
kept once.  The class sees all these fields, and those that are not named as static ones are fields
of the instance. -/
theorem validate_reports_firstFault (hreach : h.Reachable) (c : ClassId) (raw : NameSet) :
    (h.validate c raw = .error .emptyContract ↔ raw.toList = []) ∧
    (∀ error, error ≠ .emptyContract →
      (h.validate c raw = .error error ↔ h.FirstFault c raw.toList error)) ∧
    (∀ fields, h.validate c raw = .ok fields ↔
      raw.toList ≠ [] ∧ (∀ entry ∈ raw, ∀ error, ¬ h.EntryFault c entry error) ∧
        ∃ names, List.Forall₂ (h.EntryNames c) raw.toList names ∧
          fields = NameSet.ofList names) ∧
    ∀ fields, h.validate c raw = .ok fields →
      (∀ f ∈ fields, ∃ r, h.NearestField f c r) ∧
      ∀ entry ∈ raw, ¬ h.NamesStatic c entry → ∀ f, h.EntryNames c entry f →
        ∃ r, h.NearestField f c r ∧ r.field.isStatic = false := by
  have hwf : h.WellFormed := hreach.wellFormed
  have hlisted : raw.isEmpty = false ↔ raw.toList ≠ [] := by
    simp [NameSet.isEmpty]
  refine ⟨?_, fun error hother => ?_, fun fields => ?_, fun fields hvalid => ⟨?_, ?_⟩⟩
  · rw [validate_eq_error_iff hwf]
    constructor
    · rintro (⟨hnone, -⟩ | ⟨_, _, _, _, hfault, _⟩)
      · exact hnone
      · exact absurd rfl hfault.ne_emptyContract
    · exact fun hnone => Or.inl ⟨hnone, rfl⟩
  · simp [validate_eq_error_iff hwf, hother]
  · rw [validate_eq_ok_iff_faultless hwf, hlisted]
  · exact fun f hf => exists_nearestField_of_mem_validate hwf hvalid hf
  · intro entry hentry hnot f hnames
    have hfaultless := (validate_eq_ok_iff_faultless hwf).mp hvalid
    exact hnames.instance_of_not_static (hfaultless.2.1 entry hentry) hnot

/-- `Child` hides the static field `S` of `Parent` by an instance field, and the other way round for
`p`. -/
def hiddenFields : List Operation := [
  .addClass "Parent", .addClass "Child", .setSuperclass ⟨1⟩ ⟨0⟩,
  .addField ⟨0⟩ ⟨"S", true⟩, .addField ⟨0⟩ ⟨"p", false⟩, .addField ⟨0⟩ ⟨"f", false⟩,
  .addField ⟨1⟩ ⟨"S", false⟩, .addField ⟨1⟩ ⟨"p", true⟩]

theorem validate_reports_firstFault_hiddenFields :
    (after hiddenFields).Reachable ∧
      (after hiddenFields).FirstFault ⟨1⟩ ["this.S", "p", "f", "this.p", "other.f"]
        (.staticViaReceiver "p") ∧
      ∃ names, List.Forall₂ ((after hiddenFields).EntryNames ⟨1⟩)
          ["this.S", "p", "f", "S"] names ∧
        NameSet.ofList ["S", "p", "f"] = NameSet.ofList names := by
  have hreach : (after hiddenFields).Reachable := ⟨hiddenFields, rfl⟩
  let faulty : NameSet := ⟨["this.S", "p", "f", "this.p", "other.f"], by decide⟩
  let valid : NameSet := ⟨["this.S", "p", "f", "S"], by decide⟩
  have hrefused : (after hiddenFields).validate ⟨1⟩ faulty = .error (.staticViaReceiver "p") := by
    cbv
  have haccepted : (after hiddenFields).validate ⟨1⟩ valid =
      .ok (NameSet.ofList ["S", "p", "f"]) := by cbv
  have hother : DeclarationError.staticViaReceiver "p" ≠ .emptyContract := by simp
  obtain ⟨-, hfault, -, -⟩ := validate_reports_firstFault hreach ⟨1⟩ faulty
  obtain ⟨-, -, hok, -⟩ := validate_reports_firstFault hreach ⟨1⟩ valid
  exact ⟨hreach, (hfault _ hother).mp hrefused, ((hok _).mp haccepted).2.2⟩

end Hierarchy

end FieldContracts
