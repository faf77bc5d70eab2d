import FieldContracts.Program.Building
import FieldContracts.Proofs.Hierarchy.Coherence
import FieldContracts.Proofs.Hierarchy.SupertypeEdges
import Mathlib.Data.List.Basic

/-!
# Well-formed descriptions

A description is well formed if it names every class once, refers only to classes that it
describes, gives no class two fields of one name and describes no class as lying above itself.
`Within` relates it to a hierarchy under construction, whose classes have their final identities
and whose edges are some of those described.  `Within.edgeRefusal?_eq_none` says that such a
hierarchy refuses no described edge.
-/

namespace FieldContracts

/-- The names of the direct supertypes, the superclass first. -/
def ClassDesc.supertypes (desc : ClassDesc) : List String :=
  desc.superclass.toList ++ desc.interfaces

namespace Program

variable {p : Program} {h : Hierarchy} {a b name : String} {c s : ClassId} {desc : ClassDesc}

def classNames (p : Program) : List String := p.classes.map (·.name)

/-- The class `b` is described as a direct supertype of the class `a`. -/
def Below (p : Program) (a b : String) : Prop :=
  ∃ desc ∈ p.classes, desc.name = a ∧ b ∈ desc.supertypes

structure WellFormed (p : Program) : Prop where
  names_nodup : p.classNames.Nodup
  known : ∀ a b, p.Below a b → b ∈ p.classNames
  fields_nodup : ∀ desc ∈ p.classes, (desc.fields.map (·.name)).Nodup
  acyclic : ∀ a, ¬ Relation.TransGen p.Below a a

/-- The identity that the class of this name takes: its place in the description. -/
def classId (p : Program) (name : String) : ClassId := ⟨p.classNames.idxOf name⟩

theorem mem_classNames_of_mem (hdesc : desc ∈ p.classes) : desc.name ∈ p.classNames :=
  List.mem_map_of_mem hdesc

theorem Below.mem_classNames (hbelow : p.Below a b) : a ∈ p.classNames := by
  obtain ⟨desc, hdesc, rfl, -⟩ := hbelow
  exact mem_classNames_of_mem hdesc

theorem getElem?_classId (hname : name ∈ p.classNames) :
    p.classNames[(p.classId name).index]? = some name :=
  List.getElem?_idxOf hname

/-- In a description without repeated names the class at each place has the identity of its name. -/
theorem WellFormed.classId_of_getElem? (hwf : p.WellFormed) {i : Nat}
    (hdesc : p.classes[i]? = some desc) : p.classId desc.name = ⟨i⟩ := by
  have hplace : p.classNames[i]? = some desc.name := by
    rw [classNames, List.getElem?_map, hdesc]
    rfl
  obtain ⟨hlt, hget⟩ := List.getElem?_eq_some_iff.mp hplace
  unfold classId
  rw [← hget, hwf.names_nodup.idxOf_getElem]

/-- A class refers to described classes only. -/
theorem mem_classNames_of_mem_supertypes (hwf : p.WellFormed) {i : Nat}
    (hdesc : p.classes[i]? = some desc) (hname : name ∈ desc.supertypes) : name ∈ p.classNames :=
  hwf.known _ _ ⟨desc, List.mem_of_getElem? hdesc, rfl, hname⟩

/-! ## Hierarchies under construction -/

/-- The hierarchy registers the described classes in order, and some of the described edges. -/
structure Within (p : Program) (h : Hierarchy) : Prop where
  className : ∀ c, h.className? c = p.classNames[c.index]?
  edge : ∀ c s, h.DirectSupertype c s →
    ∃ a b, h.className? c = some a ∧ h.className? s = some b ∧ p.Below a b

namespace Within

theorem className?_classId (hin : p.Within h) (hname : name ∈ p.classNames) :
    h.className? (p.classId name) = some name := by
  rw [hin.className, getElem?_classId hname]

theorem classId_registered (hin : p.Within h) (hname : name ∈ p.classNames) :
    (p.classId name).index < h.classCount :=
  Hierarchy.exists_className?_iff.mp ⟨name, hin.className?_classId hname⟩

/-- No two registered classes share a name. -/
theorem name_unique (hin : p.Within h) (hwf : p.WellFormed) (c d : ClassId) (name : String)
    (hc : h.className? c = some name) (hd : h.className? d = some name) : c = d := by
  rw [hin.className] at hc hd
  obtain ⟨hlt, -⟩ := List.getElem?_eq_some_iff.mp hc
  have hindex : c.index = d.index :=
    (List.getElem?_inj hlt hwf.names_nodup).mp (hc.trans hd.symm)
  cases c
  cases d
  exact congrArg ClassId.mk hindex

/-- A described name leads to the identity of its class. -/
theorem resolveClassName_eq_ok (hin : p.Within h) (hwf : p.WellFormed)
    (hname : name ∈ p.classNames) (referencedBy : String) :
    h.resolveClassName name referencedBy = .ok (p.classId name) := by
  have hfound : h.classId? name = some (p.classId name) :=
    (Hierarchy.classId?_eq_some_iff (hin.name_unique hwf)).mpr (hin.className?_classId hname)
  unfold Hierarchy.resolveClassName
  rw [hfound]

theorem supertypesRegistered (hin : p.Within h) : h.SupertypesRegistered := by
  intro c s hdirect
  obtain ⟨a, b, -, hs, -⟩ := hin.edge c s hdirect
  exact Hierarchy.exists_className?_iff.mp ⟨b, hs⟩

/-- A way upward is described as one. -/
theorem transGen_below (hin : p.Within h) (habove : h.StrictSupertype c s) :
    ∃ a b, h.className? c = some a ∧ h.className? s = some b ∧
      Relation.TransGen p.Below a b := by
  induction habove with
  | single hlast =>
      obtain ⟨a, b, ha, hb, hbelow⟩ := hin.edge _ _ hlast
      exact ⟨a, b, ha, hb, .single hbelow⟩
  | tail _ hlast ih =>
      obtain ⟨a, b, ha, hb, hway⟩ := ih
      obtain ⟨b', d, hb', hd, hbelow⟩ := hin.edge _ _ hlast
      obtain rfl : b = b' := Option.some.inj (hb.symm.trans hb')
      exact ⟨a, d, ha, hd, .tail hway hbelow⟩

/-- No described edge is refused: a way back would be a cycle in the description. -/
theorem edgeRefusal?_eq_none (hin : p.Within h) (hwf : p.WellFormed) (hbelow : p.Below a b) :
    h.edgeRefusal? (p.classId a) (p.classId b) = none := by
  have ha : a ∈ p.classNames := hbelow.mem_classNames
  have hb : b ∈ p.classNames := hwf.known a b hbelow
  refine Hierarchy.edgeRefusal?_eq_none_iff.mpr
    ⟨hin.classId_registered ha, hin.classId_registered hb, ?_⟩
  rw [Hierarchy.mem_upward_iff hin.supertypesRegistered (hin.classId_registered hb)]
  -- The lower class at or above the upper one would close a described cycle.
  rintro (heq | habove)
  · have hsame : a = b := by
      have hnames := hin.className?_classId ha
      rw [heq, hin.className?_classId hb] at hnames
      exact (Option.some.inj hnames).symm
    exact hwf.acyclic a (.single (hsame ▸ hbelow))
  · obtain ⟨b', a', hb', ha', hway⟩ := hin.transGen_below habove
    rw [hin.className?_classId hb, Option.some.injEq] at hb'
    rw [hin.className?_classId ha, Option.some.injEq] at ha'
    subst hb' ha'
    exact hwf.acyclic a (.head hbelow hway)

/-- Adding a described edge leaves a hierarchy of this kind. -/
theorem apply_edge (hin : p.Within h) (hwf : p.WellFormed) (hbelow : p.Below a b)
    {op : Operation} {kind : SupertypeKind}
    (hedge : op.edge? = some ⟨kind, p.classId a, p.classId b⟩) {h' : Hierarchy}
    (happly : op.apply h = .ok h') : p.Within h' := by
  have hname : ∀ c, h'.className? c = h.className? c := fun c => by
    rw [Hierarchy.className?, Hierarchy.class?_of_apply happly hedge, ← Hierarchy.className?]
  constructor
  · intro c
    rw [hname, hin.className]
  · intro c s hdirect
    rw [hname, hname]
    rcases (Hierarchy.directSupertype_of_apply happly).mp hdirect with hold | hnew
    · exact hin.edge c s hold
    · obtain ⟨rfl, rfl⟩ : p.classId a = c ∧ p.classId b = s := by
        simpa [hedge, SupertypeEdge.Joins] using hnew
      exact ⟨a, b, hin.className?_classId hbelow.mem_classNames,
        hin.className?_classId (hwf.known a b hbelow), hbelow⟩

end Within

end Program

end FieldContracts
