import FieldContracts.Contract.Declaration
import FieldContracts.Proofs.Hierarchy.NearestField

/-!
# Which declarations are valid

`EntryNames` says which field a valid entry names, with shadowed fields as the class sees them, and
`ValidEntry` adds that the entry does not name a static field after `this.`.
`mem_of_validate_iff` reads the fields of a valid declaration off its entries, and `ownReading`
says which field it is for each of them.  As long as no entry names a static field with a dot in its
name, they are the last segments of the entries (`eq_trimReceivers_of_validate`), so a method means
the same by its contract as an overrider and as an overridden method.
-/

namespace FieldContracts

/-! ## Entries as texts -/

theorem isSimpleName_iff {name : String} :
    isSimpleName name = true ↔ name ≠ "" ∧ '.' ∉ name.toList := by
  simp [isSimpleName]

/-- A text without a dot does not start with `this.`. -/
theorem afterThis?_of_dotless {entry : String} (hdot : '.' ∉ entry.toList) :
    afterThis? entry = none := by
  cases hafter : afterThis? entry with
  | none => rfl
  | some rest =>
      rw [afterThis?_eq_some_iff.mp hafter] at hdot
      simp at hdot

/-- An entry refers to the simple name that it is, or that follows `this.` in it. -/
theorem name_ofEntry?_eq_some_iff {entry f : String} :
    (FieldReference.ofEntry? entry).map (·.name) = some f ↔
      (entry = f ∨ entry = "this." ++ f) ∧ f ≠ "" ∧ '.' ∉ f.toList := by
  unfold FieldReference.ofEntry?
  constructor
  · intro hname
    split at hname
    · next rest hafter =>
        split at hname
        · next hsimple =>
            obtain rfl : rest = f := by simpa using hname
            exact ⟨Or.inr (afterThis?_eq_some_iff.mp hafter), isSimpleName_iff.mp hsimple⟩
        · simp at hname
    · split at hname
      · next hsimple =>
          obtain rfl : entry = f := by simpa using hname
          exact ⟨Or.inl rfl, isSimpleName_iff.mp hsimple⟩
      · simp at hname
  · rintro ⟨rfl | rfl, hsimple⟩
    · simp [afterThis?_of_dotless hsimple.2, isSimpleName_iff.mpr hsimple]
    · simp [afterThis?_eq_some_iff.mpr rfl, isSimpleName_iff.mpr hsimple]

/-- The last segment of a name after `this.` is the name. -/
theorem lastSegment_this_append {f : String} (hdot : '.' ∉ f.toList) :
    lastSegment ("this." ++ f) = f := by
  have hkeep : f.toList.reverse.all (· != '.') = true := by
    simp only [List.all_eq_true, List.mem_reverse, bne_iff_ne]
    exact fun c hc heq => hdot (heq ▸ hc)
  have hstop : ("this." ++ f).toList.reverse = f.toList.reverse ++ '.' :: ['s', 'i', 'h', 't'] := by
    simp
  rw [lastSegment, hstop, List.takeWhile_append_of_pos fun c hc => List.all_eq_true.mp hkeep c hc]
  simp

/-! ## Successful loops over entries -/

theorem mapM_eq_ok_iff {ε α β : Type} {f : α → Except ε β} {xs : List α} {ys : List β} :
    xs.mapM f = .ok ys ↔ xs.map f = ys.map .ok := by
  induction xs generalizing ys with
  | nil => cases ys <;> simp [pure, Except.pure]
  | cons x rest ih =>
      rw [List.mapM_cons, List.map_cons]
      cases hx : f x with
      | error e => cases ys <;> simp [bind, Except.bind]
      | ok y =>
          cases hrest : rest.mapM f with
          | error e =>
              cases ys with
              | nil => simp [bind, Except.bind]
              | cons z zs => simp [bind, Except.bind, ← ih, hrest]
          | ok found =>
              cases ys with
              | nil => simp [bind, Except.bind, pure, Except.pure]
              | cons z zs => simp [bind, Except.bind, pure, Except.pure, ← ih, hrest]

/-- All entries succeed together if each of them succeeds. -/
theorem exists_map_eq_map_ok_iff {ε α β : Type} {f : α → Except ε β} {xs : List α} :
    (∃ ys : List β, xs.map f = ys.map .ok) ↔ ∀ x ∈ xs, ∃ y, f x = .ok y := by
  constructor
  · rintro ⟨ys, hys⟩ x hx
    have hok : f x ∈ ys.map Except.ok := hys ▸ List.mem_map_of_mem hx
    obtain ⟨y, -, heq⟩ := List.mem_map.mp hok
    exact ⟨y, heq.symm⟩
  · intro hall
    induction xs with
    | nil => exact ⟨[], rfl⟩
    | cons x rest ih =>
        obtain ⟨y, hy⟩ := hall x List.mem_cons_self
        obtain ⟨ys, hys⟩ := ih fun other hother => hall other (List.mem_cons_of_mem x hother)
        exact ⟨y :: ys, by rw [List.map_cons, List.map_cons, hy, hys]⟩

/-- If success determines the result, the results of all entries are determined. -/
theorem eq_map_of_map_eq_map_ok {ε α β : Type} {f : α → Except ε β} {g : α → β} {xs : List α}
    {ys : List β} (hvalue : ∀ x ∈ xs, ∀ y, f x = .ok y → y = g x)
    (hys : xs.map f = ys.map .ok) : ys = xs.map g := by
  induction xs generalizing ys with
  | nil => simpa using hys.symm
  | cons x rest ih =>
      cases ys with
      | nil => simp at hys
      | cons y tail =>
          rw [List.map_cons, List.map_cons] at hys
          obtain ⟨hhead, htail⟩ := List.cons.inj hys
          have hrest : tail = rest.map g :=
            ih (fun other hother => hvalue other (List.mem_cons_of_mem x hother)) htail
          rw [List.map_cons, ← hrest, ← hvalue x List.mem_cons_self y hhead]

namespace Hierarchy

variable {h : Hierarchy} {c : ClassId} {entry f : String} {raw fields : NameSet}

/-- The class sees a static field of this name. -/
def NamesStatic (h : Hierarchy) (c : ClassId) (name : String) : Prop :=
  ∃ r, h.NearestField name c r ∧ r.field.isStatic = true

/-- The entry, in a declaration of class `c`, names the field `f`: a static field is named as it is
declared, any other field bare or after `this.`. -/
inductive EntryNames (h : Hierarchy) (c : ClassId) : (entry f : String) → Prop
  | static {entry : String} (hstatic : h.NamesStatic c entry) : EntryNames h c entry entry
  | plain {entry f : String} (hstatic : ¬ h.NamesStatic c entry)
      (hform : entry = f ∨ entry = "this." ++ f) (hne : f ≠ "") (hdot : '.' ∉ f.toList)
      (hknown : ∃ r, h.NearestField f c r) : EntryNames h c entry f

/-- The entry names a field, and it is not a static field after `this.`. -/
def ValidEntry (h : Hierarchy) (c : ClassId) (entry : String) : Prop :=
  (∀ s, entry = "this." ++ s → ¬ h.NamesStatic c s) ∧ ∃ f, h.EntryNames c entry f

theorem resolvesToStatic_iff (hwf : h.WellFormed) {name : String} :
    h.resolvesToStatic c name = true ↔ h.NamesStatic c name := by
  rw [resolvesToStatic, Option.any_eq_true, NamesStatic]
  simp only [resolveField_eq_some_iff hwf]

/-- No static field stands after `this.` in the entry. -/
theorem filter_afterThis?_eq_none_iff (hwf : h.WellFormed) :
    (afterThis? entry).filter (h.resolvesToStatic c) = none ↔
      ∀ s, entry = "this." ++ s → ¬ h.NamesStatic c s := by
  rw [Option.filter_eq_none_iff]
  constructor
  · intro hnone s hs hstatic
    exact hnone s (afterThis?_eq_some_iff.mpr hs) ((resolvesToStatic_iff hwf).mpr hstatic)
  · intro hnone s hs hstatic
    exact hnone s (afterThis?_eq_some_iff.mp hs) ((resolvesToStatic_iff hwf).mp hstatic)

theorem plainField_eq_ok_iff (hwf : h.WellFormed) :
    h.plainField c entry = .ok f ↔
      ((entry = f ∨ entry = "this." ++ f) ∧ f ≠ "" ∧ '.' ∉ f.toList) ∧
        ∃ r, h.NearestField f c r := by
  rw [← name_ofEntry?_eq_some_iff, ← resolveField_isSome_iff hwf]
  unfold plainField
  cases FieldReference.ofEntry? entry with
  | none => simp
  | some reference =>
      by_cases hname : reference.name = f
      · subst hname
        by_cases hknown : (h.resolveField c reference.name).isSome = true
        · simp [hknown]
        · simp [hknown]
      · by_cases hknown : (h.resolveField c reference.name).isSome = true
        · simp [hknown, hname]
        · simp [hknown, hname]

theorem entryField_eq_ok_iff (hwf : h.WellFormed) :
    h.entryField c entry = .ok f ↔
      (∀ s, entry = "this." ++ s → ¬ h.NamesStatic c s) ∧ h.EntryNames c entry f := by
  rw [← filter_afterThis?_eq_none_iff hwf]
  unfold entryField
  cases (afterThis? entry).filter (h.resolvesToStatic c) with
  | some s => simp
  | none =>
      rw [eq_self_iff_true, true_and]
      by_cases hstatic : h.NamesStatic c entry
      · simp only [(resolvesToStatic_iff hwf).mpr hstatic, if_true, Except.ok.injEq]
        constructor
        · rintro rfl
          exact .static hstatic
        · intro hnames
          cases hnames with
          | static _ => rfl
          | plain hnot _ _ _ _ => exact absurd hstatic hnot
      · have hfalse : ¬ h.resolvesToStatic c entry = true := fun htrue =>
          hstatic ((resolvesToStatic_iff hwf).mp htrue)
        simp only [hfalse, if_false, Bool.false_eq_true, plainField_eq_ok_iff hwf]
        constructor
        · rintro ⟨⟨hform, hne, hdot⟩, hknown⟩
          exact .plain hstatic hform hne hdot hknown
        · intro hnames
          cases hnames with
          | static hyes => exact absurd hyes hstatic
          | plain _ hform hne hdot hknown => exact ⟨⟨hform, hne, hdot⟩, hknown⟩

theorem validEntry_iff (hwf : h.WellFormed) :
    h.ValidEntry c entry ↔ ∃ f, h.entryField c entry = .ok f := by
  simp only [entryField_eq_ok_iff hwf, exists_and_left, ValidEntry]

/-! ## Whole declarations -/

theorem validate_eq_ok_iff :
    h.validate c raw = .ok fields ↔
      raw.isEmpty = false ∧ ∃ names, raw.toList.map (h.entryField c) = names.map .ok ∧
        fields = NameSet.ofList names := by
  unfold validate
  cases hempty : raw.isEmpty with
  | true => simp
  | false =>
      simp only [Bool.false_eq_true, if_false, true_and, ← mapM_eq_ok_iff]
      cases raw.toList.mapM (h.entryField c) with
      | error e => simp [Except.map]
      | ok names => simp [Except.map, eq_comm]

/-- The fields of a valid declaration are those that its entries name. -/
theorem mem_of_validate_iff (hvalid : h.validate c raw = .ok fields) :
    f ∈ fields ↔ ∃ entry ∈ raw, h.entryField c entry = .ok f := by
  obtain ⟨-, names, hnames, rfl⟩ := validate_eq_ok_iff.mp hvalid
  rw [NameSet.mem_ofList]
  constructor
  · intro hf
    have hok : Except.ok f ∈ raw.toList.map (h.entryField c) :=
      hnames ▸ List.mem_map_of_mem hf
    obtain ⟨entry, hentry, heq⟩ := List.mem_map.mp hok
    exact ⟨entry, hentry, heq⟩
  · rintro ⟨entry, hentry, heq⟩
    have hmem : h.entryField c entry ∈ raw.toList.map (h.entryField c) :=
      List.mem_map_of_mem hentry
    rw [hnames, heq] at hmem
    obtain ⟨g, hg, hsame⟩ := List.mem_map.mp hmem
    exact Except.ok.inj hsame ▸ hg

/-- The class sees every field that an entry names. -/
theorem EntryNames.exists_nearestField (hnames : h.EntryNames c entry f) :
    ∃ r, h.NearestField f c r := by
  cases hnames with
  | static hstatic =>
      obtain ⟨r, hnear, -⟩ := hstatic
      exact ⟨r, hnear⟩
  | plain _ _ _ _ hknown => exact hknown

theorem exists_nearestField_of_mem_validate (hwf : h.WellFormed)
    (hvalid : h.validate c raw = .ok fields) (hf : f ∈ fields) : ∃ r, h.NearestField f c r := by
  obtain ⟨entry, -, hok⟩ := (mem_of_validate_iff hvalid).mp hf
  exact ((entryField_eq_ok_iff hwf).mp hok).2.exists_nearestField

/-- A declaration is valid if it lists some entry and every entry names a field. -/
theorem exists_validate_eq_ok_iff :
    (∃ fields, h.validate c raw = .ok fields) ↔
      raw.isEmpty = false ∧ ∀ entry ∈ raw, ∃ f, h.entryField c entry = .ok f := by
  simp only [validate_eq_ok_iff]
  constructor
  · rintro ⟨fields, hne, names, hnames, -⟩
    exact ⟨hne, exists_map_eq_map_ok_iff.mp ⟨names, hnames⟩⟩
  · rintro ⟨hne, hall⟩
    obtain ⟨names, hnames⟩ := exists_map_eq_map_ok_iff.mpr hall
    exact ⟨_, hne, names, hnames, rfl⟩

/-! ## What a valid declaration says -/

/-- The field that a valid entry names: a static one by the whole entry, any other one by what
follows the last dot. -/
def ownReading (h : Hierarchy) (c : ClassId) (entry : String) : String :=
  if h.resolvesToStatic c entry then entry else lastSegment entry

/-- No entry is the name of a static field with a dot in it. -/
def StaticEntriesDotless (h : Hierarchy) (c : ClassId) (raw : NameSet) : Prop :=
  ∀ entry ∈ raw, h.NamesStatic c entry → '.' ∉ entry.toList

theorem ownReading_of_static (hwf : h.WellFormed) (hstatic : h.NamesStatic c entry) :
    h.ownReading c entry = entry :=
  if_pos ((resolvesToStatic_iff hwf).mpr hstatic)

theorem ownReading_of_not_static (hwf : h.WellFormed) (hnot : ¬ h.NamesStatic c entry) :
    h.ownReading c entry = lastSegment entry :=
  if_neg fun htrue => hnot ((resolvesToStatic_iff hwf).mp htrue)

theorem EntryNames.eq_ownReading (hwf : h.WellFormed) (hnames : h.EntryNames c entry f) :
    f = h.ownReading c entry := by
  cases hnames with
  | static hstatic => exact (ownReading_of_static hwf hstatic).symm
  | plain hnot hform _ hdot _ =>
      rw [ownReading_of_not_static hwf hnot]
      rcases hform with rfl | rfl
      · exact (lastSegment_of_dotless hdot).symm
      · exact (lastSegment_this_append hdot).symm

/-- Validation reads the entries one by one and keeps each field once. -/
theorem eq_ownReading_of_validate (hwf : h.WellFormed) (hvalid : h.validate c raw = .ok fields) :
    fields = NameSet.ofList (raw.toList.map (h.ownReading c)) := by
  obtain ⟨-, names, hnames, rfl⟩ := validate_eq_ok_iff.mp hvalid
  have hread : ∀ entry ∈ raw.toList, ∀ f, h.entryField c entry = .ok f →
      f = h.ownReading c entry := by
    intro entry _ f hok
    exact ((entryField_eq_ok_iff hwf).mp hok).2.eq_ownReading hwf
  rw [eq_map_of_map_eq_map_ok hread hnames]

/-- A valid declaration names a static field by the entry itself. -/
theorem mem_of_static_entry (hwf : h.WellFormed) (hvalid : h.validate c raw = .ok fields)
    (hentry : entry ∈ raw) (hstatic : h.NamesStatic c entry) : entry ∈ fields := by
  rw [eq_ownReading_of_validate hwf hvalid, NameSet.mem_ofList]
  exact List.mem_map.mpr ⟨entry, hentry, ownReading_of_static hwf hstatic⟩

/-- A valid declaration means what its entries say when taken at their word. -/
theorem eq_trimReceivers_of_validate (hwf : h.WellFormed)
    (hdotless : h.StaticEntriesDotless c raw) (hvalid : h.validate c raw = .ok fields) :
    fields = trimReceivers raw := by
  have hreadings : raw.toList.map (h.ownReading c) = raw.toList.map lastSegment := by
    refine List.map_congr_left fun entry hentry => ?_
    by_cases hstatic : h.NamesStatic c entry
    · rw [ownReading_of_static hwf hstatic, lastSegment_of_dotless (hdotless entry hentry hstatic)]
    · exact ownReading_of_not_static hwf hstatic
  rw [eq_ownReading_of_validate hwf hvalid, hreadings, trimReceivers]

end Hierarchy

end FieldContracts
