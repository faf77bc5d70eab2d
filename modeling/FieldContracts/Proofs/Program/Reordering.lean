import FieldContracts.Proofs.Check.Location
import FieldContracts.Proofs.Check.Renaming
import FieldContracts.Proofs.Program.ExitFacts
import Mathlib

/-!
# Descriptions that list the same classes in another order

Whether a description is well formed does not depend on the order of its classes, and what it lays
out depends on it only through the identities.  `renamedTo_of_perm` says that `reordering p p'`
leads from the hierarchy of one order to that of the other, and `facts_reordering` that exit facts
go along.  `checkAll_of_perm` concludes that the reports on each class stay what they are.
-/

namespace FieldContracts

namespace Program

open Hierarchy

variable {p p' : Program} {desc : ClassDesc} {method : MethodDesc} {i j k : Nat} {c : ClassId}
  {m n : MethodId}

/-! ## Well-formed in any order -/

theorem below_iff_of_perm (hperm : p.classes.Perm p'.classes) {a b : String} :
    p'.Below a b ↔ p.Below a b := by
  simp only [Below, hperm.mem_iff]

theorem WellFormed.of_perm (hwf : p.WellFormed) (hperm : p.classes.Perm p'.classes) :
    p'.WellFormed where
  names_nodup := (hperm.map ClassDesc.name).nodup_iff.mp hwf.names_nodup
  known := fun a b hbelow =>
    (hperm.map ClassDesc.name).mem_iff.mp (hwf.known a b ((below_iff_of_perm hperm).mp hbelow))
  fields_nodup := fun desc hdesc => hwf.fields_nodup desc (hperm.mem_iff.mpr hdesc)
  acyclic := fun a hcycle =>
    hwf.acyclic a (Relation.TransGen.mono (fun _ _ => (below_iff_of_perm hperm).mp) a a hcycle)

/-! ## New identities -/

/-- A class takes its place in the other order, and a method its place in the same class. -/
def reordering (p p' : Program) : Renaming :=
  let onClass (c : ClassId) : ClassId := ((p.hierarchy.className? c).map p'.classId).getD c
  { onClass
    onMethod := fun m =>
      match p.hierarchy.method? m with
      | some decl =>
          p'.methodId (onClass decl.owner).index (m.index - p.methodsBefore decl.owner.index)
      | none => m }

/-- A class of one order stands somewhere in the other one. -/
theorem exists_getElem?_of_perm (hperm : p.classes.Perm p'.classes)
    (hdesc : p.classes[i]? = some desc) : ∃ j : Nat, p'.classes[j]? = some desc :=
  List.getElem?_of_mem (hperm.mem_iff.mp (List.mem_of_getElem? hdesc))

/-- The class at place `i` moves to the place of its description. -/
theorem onClass_reordering (hwf' : p'.WellFormed) (hdesc : p.classes[i]? = some desc)
    (hdesc' : p'.classes[j]? = some desc) : (reordering p p').onClass ⟨i⟩ = ⟨j⟩ := by
  show ((p.hierarchy.className? ⟨i⟩).map p'.classId).getD ⟨i⟩ = ⟨j⟩
  rw [className?_hierarchy hdesc, Option.map_some, Option.getD_some,
    hwf'.classId_of_getElem? hdesc']

/-- A described class moves along with its name. -/
theorem onClass_reordering_classId (hwf : p.WellFormed) {name : String}
    (hname : name ∈ p.classNames) :
    (reordering p p').onClass (p.classId name) = p'.classId name := by
  show ((p.hierarchy.className? (p.classId name)).map p'.classId).getD _ = _
  rw [className?_hierarchy_classId hwf hname, Option.map_some, Option.getD_some]

/-- The method keeps its place in its class. -/
theorem onMethod_reordering (hwf' : p'.WellFormed) (hdesc : p.classes[i]? = some desc)
    (hmethod : desc.methods[k]? = some method) (hdesc' : p'.classes[j]? = some desc) :
    (reordering p p').onMethod (p.methodId i k) = p'.methodId j k := by
  have hm := method?_methodId hdesc hmethod
  have hclass := onClass_reordering hwf' hdesc hdesc'
  have hk : (p.methodId i k).index - p.methodsBefore i = k := Nat.add_sub_cancel_left ..
  unfold reordering at hclass ⊢
  simp only [hm]
  rw [hk]
  exact congrArg (fun c => p'.methodId c.index k) hclass

/-! ## The two hierarchies -/

/-- A registered class is described somewhere. -/
theorem exists_getElem?_classes (hc : c.index < p.hierarchy.classCount) :
    ∃ desc, p.classes[c.index]? = some desc :=
  ⟨_, List.getElem?_eq_getElem (classCount_hierarchy p ▸ hc)⟩

/-- A registered class has one description, at its place here and at the place where it moves. -/
theorem exists_place_of_perm (hwf : p.WellFormed) (hperm : p.classes.Perm p'.classes)
    (hc : c.index < p.hierarchy.classCount) :
    ∃ desc j, p.classes[c.index]? = some desc ∧ p'.classes[j]? = some desc ∧
      (reordering p p').onClass c = ⟨j⟩ := by
  obtain ⟨desc, hdesc⟩ := exists_getElem?_classes hc
  obtain ⟨j, hdesc'⟩ := exists_getElem?_of_perm hperm hdesc
  exact ⟨desc, j, hdesc, hdesc', onClass_reordering (hwf.of_perm hperm) hdesc hdesc'⟩

theorem superclass?_reordering (hwf : p.WellFormed) (hdesc : p.classes[i]? = some desc)
    (hdesc' : p'.classes[j]? = some desc) :
    p'.hierarchy.superclass? ⟨j⟩ =
      (p.hierarchy.superclass? ⟨i⟩).map (reordering p p').onClass := by
  rw [superclass?, superclass?, registered?_hierarchy hdesc', registered?_hierarchy hdesc]
  show desc.superclass.map p'.classId = (desc.superclass.map p.classId).map _
  cases hsuper : desc.superclass with
  | none => rfl
  | some name =>
      have hname : name ∈ p.classNames :=
        mem_classNames_of_mem_supertypes hwf hdesc (by simp [ClassDesc.supertypes, hsuper])
      rw [Option.map_some, Option.map_some, Option.map_some, onClass_reordering_classId hwf hname]

theorem interfaces_reordering (hwf : p.WellFormed) (hdesc : p.classes[i]? = some desc)
    (hdesc' : p'.classes[j]? = some desc) :
    p'.hierarchy.interfaces ⟨j⟩ =
      (p.hierarchy.interfaces ⟨i⟩).map (reordering p p').onClass := by
  rw [interfaces, interfaces, registered?_hierarchy hdesc', registered?_hierarchy hdesc]
  show desc.interfaces.map p'.classId = (desc.interfaces.map p.classId).map _
  rw [List.map_map]
  refine List.map_congr_left fun name hname => ?_
  have hknown : name ∈ p.classNames :=
    mem_classNames_of_mem_supertypes hwf hdesc (List.mem_append_right _ hname)
  exact (onClass_reordering_classId hwf hknown).symm

/-- The hierarchies of both orders agree up to the identities. -/
theorem renamedTo_of_perm (hwf : p.WellFormed) (hperm : p.classes.Perm p'.classes) :
    p.hierarchy.RenamedTo p'.hierarchy (fun c => c.index < p.hierarchy.classCount)
      (reordering p p') := by
  have hwf' : p'.WellFormed := hwf.of_perm hperm
  constructor
  case upward => exact fun c s _ hdirect => hwf.reachable.wellFormed.registered c s hdirect
  case injective =>
    intro c d hc hd heq
    obtain ⟨desc, j, hdesc, hdesc', hj⟩ := exists_place_of_perm hwf hperm hc
    obtain ⟨other, j', hother, hother', hj'⟩ := exists_place_of_perm hwf hperm hd
    obtain rfl : j = j' := congrArg ClassId.index (hj.symm.trans (heq.trans hj'))
    obtain rfl : desc = other := Option.some.inj (hdesc'.symm.trans hother')
    exact (hwf.classId_of_getElem? hdesc).symm.trans (hwf.classId_of_getElem? hother)
  case className =>
    intro c hc
    obtain ⟨desc, j, hdesc, hdesc', hj⟩ := exists_place_of_perm hwf hperm hc
    rw [hj, className?_hierarchy hdesc', className?_hierarchy hdesc]
  case superclass =>
    intro c hc
    obtain ⟨desc, j, hdesc, hdesc', hj⟩ := exists_place_of_perm hwf hperm hc
    rw [hj, superclass?_reordering hwf hdesc hdesc']
  case interfaces =>
    intro c hc
    obtain ⟨desc, j, hdesc, hdesc', hj⟩ := exists_place_of_perm hwf hperm hc
    rw [hj, interfaces_reordering hwf hdesc hdesc']
  case declaredField =>
    intro c name hc
    obtain ⟨desc, j, hdesc, hdesc', hj⟩ := exists_place_of_perm hwf hperm hc
    rw [hj, declaredField?, declaredField?, class?_hierarchy hdesc', class?_hierarchy hdesc]
    simp only [Option.bind_some, ClassDecl.field?, fields_entry]
  case declaredMethods =>
    intro c hc
    obtain ⟨desc, j, hdesc, hdesc', hj⟩ := exists_place_of_perm hwf hperm hc
    rw [hj, declaredMethods_hierarchy hdesc', declaredMethods_hierarchy hdesc, List.map_map]
    refine List.map_congr_left fun k hk => ?_
    have hmethod := List.getElem?_eq_getElem (List.mem_range.mp hk)
    exact (onMethod_reordering hwf' hdesc hmethod hdesc').symm
  case method =>
    intro m decl hm hscope
    obtain ⟨i, k, desc, method, hdesc, hmethod, rfl, rfl⟩ := exists_methodId hwf hm
    obtain ⟨j, hdesc'⟩ := exists_getElem?_of_perm hperm hdesc
    rw [onMethod_reordering hwf' hdesc hmethod hdesc', method?_methodId hdesc' hmethod,
      onClass_reordering hwf' hdesc hdesc']

/-- A method has the same exit facts in both orders. -/
theorem facts_reordering (hwf : p.WellFormed) (hperm : p.classes.Perm p'.classes)
    {decl : MethodDecl} (hm : p.hierarchy.method? m = some decl) :
    (FactTable.ofProgram p' p'.hierarchy).facts ((reordering p p').onMethod m) =
      (FactTable.ofProgram p p.hierarchy).facts m := by
  obtain ⟨i, k, desc, method, hdesc, hmethod, rfl, -⟩ := exists_methodId hwf hm
  obtain ⟨j, hdesc'⟩ := exists_getElem?_of_perm hperm hdesc
  rw [onMethod_reordering (hwf.of_perm hperm) hdesc hmethod hdesc',
    facts_ofProgram_methodId (hwf.of_perm hperm) hdesc' hmethod,
    facts_ofProgram_methodId hwf hdesc hmethod]

/-- The methods of both hierarchies correspond to each other. -/
theorem bijOn_reordering (hwf : p.WellFormed) (hperm : p.classes.Perm p'.classes) :
    Set.BijOn (reordering p p').onMethod {m | m ∈ p.hierarchy.methodIds}
      {m | m ∈ p'.hierarchy.methodIds} := by
  have hwf' : p'.WellFormed := hwf.of_perm hperm
  have hren := renamedTo_of_perm hwf hperm
  have hscope : ∀ {m decl}, p.hierarchy.method? m = some decl →
      decl.owner.index < p.hierarchy.classCount := hwf.reachable.coherent.owner_registered
  refine ⟨fun m hm => ?_, fun m hm n hn heq => ?_, fun m hm => ?_⟩
  · obtain ⟨decl, hdecl⟩ := exists_method?_iff.mpr (mem_methodIds_iff.mp hm)
    exact mem_methodIds_iff.mpr (lt_methodCount (hren.method m decl hdecl (hscope hdecl)))
  · obtain ⟨decl, hdecl⟩ := exists_method?_iff.mpr (mem_methodIds_iff.mp hm)
    obtain ⟨other, hother⟩ := exists_method?_iff.mpr (mem_methodIds_iff.mp hn)
    have howner : (reordering p p').onClass decl.owner = (reordering p p').onClass other.owner := by
      have hsame := hren.method m decl hdecl (hscope hdecl)
      rw [heq, hren.method n other hother (hscope hother), Option.some.injEq] at hsame
      exact (congrArg MethodDecl.owner hsame).symm
    have hclass : decl.owner = other.owner :=
      hren.injective _ _ (hscope hdecl) (hscope hother) howner
    obtain ⟨i, k, desc, method, hdesc, hmethod, rfl, rfl⟩ := exists_methodId hwf hdecl
    obtain ⟨i', k', desc', method', hdesc', hmethod', rfl, rfl⟩ := exists_methodId hwf hother
    obtain rfl : i = i' := congrArg ClassId.index hclass
    obtain rfl : desc = desc' := Option.some.inj (hdesc.symm.trans hdesc')
    obtain ⟨j, hplace⟩ := exists_getElem?_of_perm hperm hdesc
    rw [onMethod_reordering hwf' hdesc hmethod hplace,
      onMethod_reordering hwf' hdesc hmethod' hplace] at heq
    have hk : p'.methodsBefore j + k = p'.methodsBefore j + k' := congrArg MethodId.index heq
    rw [Nat.add_left_cancel hk]
  · obtain ⟨decl, hdecl⟩ := exists_method?_iff.mpr (mem_methodIds_iff.mp hm)
    obtain ⟨j, k, desc, method, hdesc', hmethod, rfl, -⟩ := exists_methodId hwf' hdecl
    obtain ⟨i, hdesc⟩ := exists_getElem?_of_perm hperm.symm hdesc'
    refine ⟨p.methodId i k, ?_, onMethod_reordering hwf' hdesc hmethod hdesc'⟩
    exact mem_methodIds_iff.mpr (lt_methodCount (method?_methodId hdesc hmethod))

/-! ## The reports -/

/-- Of the methods of a class the same is reported in both orders. -/
theorem reportsIn_of_perm (hwf : p.WellFormed) (hperm : p.classes.Perm p'.classes) (config : Config)
    (name : String) :
    config.reportsIn p'.hierarchy (FactTable.ofProgram p' p'.hierarchy).facts name =
      (config.reportsIn p.hierarchy (FactTable.ofProgram p p.hierarchy).facts name).map
        (Diagnostic.relocate (reordering p p').onMethod) := by
  have hreach : p.hierarchy.Reachable := hwf.reachable
  have hreach' : p'.hierarchy.Reachable := (hwf.of_perm hperm).reachable
  have hren := renamedTo_of_perm hwf hperm
  by_cases hname : ∃ c, p.hierarchy.className? c = some name
  · obtain ⟨c, hc⟩ := hname
    have hscope : c.index < p.hierarchy.classCount := exists_className?_iff.mp ⟨name, hc⟩
    have hc' : p'.hierarchy.className? ((reordering p p').onClass c) = some name :=
      (hren.className c hscope).trans hc
    rw [config.reportsIn_eq_checkClass hreach.coherent hc,
      config.reportsIn_eq_checkClass hreach'.coherent hc']
    refine config.checkClass_renamed hren hreach.wellFormed hreach'.wellFormed hreach.coherent
      hscope fun m hm => ?_
    obtain ⟨decl, hdecl, -⟩ := hreach.coherent.owned c m hm
    exact facts_reordering hwf hperm hdecl
  · rw [not_exists] at hname
    have hname' : ∀ c, p'.hierarchy.className? c ≠ some name := by
      intro c hc
      obtain ⟨desc, hdesc⟩ := exists_getElem?_classes (exists_className?_iff.mp ⟨name, hc⟩)
      obtain ⟨i, hplace⟩ := exists_getElem?_of_perm hperm.symm hdesc
      rw [className?_hierarchy hdesc] at hc
      exact hname ⟨i⟩ ((className?_hierarchy hplace).trans hc)
    rw [config.reportsIn_eq_nil hreach.coherent hname,
      config.reportsIn_eq_nil hreach'.coherent hname']
    rfl

/-- Whether a description builds a hierarchy does not depend on the order of its classes.  If it
does, the reports on the methods of each class are the same in both orders up to the identities of
the methods, which keep their places in their classes, and the whole report lists them class by
class. -/
theorem checkAll_of_perm (p p' : Program) (hperm : p.classes.Perm p'.classes) :
    ((∃ h, ofProgram p = .ok h) ↔ ∃ h', ofProgram p' = .ok h') ∧
      ∀ h h', ofProgram p = .ok h → ofProgram p' = .ok h' →
        ∃ renumber : MethodId → MethodId,
          Set.BijOn renumber {m | m ∈ h.methodIds} {m | m ∈ h'.methodIds} ∧
          (∀ c c' name, h.className? c = some name → h'.className? c' = some name →
            h'.declaredMethods c' = (h.declaredMethods c).map renumber) ∧
          ∀ config : Config,
            (∀ name, config.reportsIn h' (FactTable.ofProgram p' h').facts name =
              (config.reportsIn h (FactTable.ofProgram p h).facts name).map
                (Diagnostic.relocate renumber)) ∧
            config.checkAll h' (FactTable.ofProgram p' h').facts =
              p'.classNames.flatMap (config.reportsIn h' (FactTable.ofProgram p' h').facts) := by
  constructor
  · constructor
    · rintro ⟨h, hbuild⟩
      exact ⟨_, ofProgram_eq_ok ((ofProgram_eq_ok_iff.mp hbuild).1.of_perm hperm)⟩
    · rintro ⟨h', hbuild'⟩
      exact ⟨_, ofProgram_eq_ok ((ofProgram_eq_ok_iff.mp hbuild').1.of_perm hperm.symm)⟩
  · intro h h' hbuild hbuild'
    obtain ⟨hwf, rfl⟩ := ofProgram_eq_ok_iff.mp hbuild
    obtain ⟨hwf', rfl⟩ := ofProgram_eq_ok_iff.mp hbuild'
    have hren := renamedTo_of_perm hwf hperm
    refine ⟨(reordering p p').onMethod, bijOn_reordering hwf hperm, fun c c' name hc hc' => ?_,
      fun config => ⟨reportsIn_of_perm hwf hperm config, ?_⟩⟩
    · have hscope : c.index < p.hierarchy.classCount := exists_className?_iff.mp ⟨name, hc⟩
      have hsame : (reordering p p').onClass c = c' :=
        hwf'.reachable.coherent.name_unique _ _ name ((hren.className c hscope).trans hc) hc'
      rw [← hsame]
      exact hren.declaredMethods c hscope
    · exact config.checkAll_eq_flatMap_reportsIn hwf'.reachable.coherent (className?_filled _)

/-- A method that requires a field which the method it overrides does not require. -/
def strictSub : ClassDesc where
  name := "Sub"
  superclass := some "Base"
  interfaces := []
  fields := []
  methods := [⟨⟨⟨"run", []⟩, false, [⟨"RequiresNonNull", ["f"]⟩]⟩, some ["f"]⟩]

/-- A class with a field, a method without contract and the method that is overridden. -/
def laxBase : ClassDesc where
  name := "Base"
  superclass := none
  interfaces := []
  fields := [⟨"f", false⟩]
  methods := [⟨⟨⟨"init", []⟩, false, []⟩, none⟩, ⟨⟨⟨"run", []⟩, false, []⟩, some []⟩]

theorem checkAll_of_perm_strictSub :
    ∃ h h' renumber, ofProgram ⟨[strictSub, laxBase]⟩ = .ok h ∧
      ofProgram ⟨[laxBase, strictSub]⟩ = .ok h' ∧
      ((Config.standard.reportsIn h (FactTable.ofProgram ⟨[strictSub, laxBase]⟩ h).facts
        "Sub").map (·.location.method)) = [⟨0⟩] ∧ renumber ⟨0⟩ = ⟨2⟩ ∧
      Config.standard.reportsIn h' (FactTable.ofProgram ⟨[laxBase, strictSub]⟩ h').facts "Sub" =
        (Config.standard.reportsIn h (FactTable.ofProgram ⟨[strictSub, laxBase]⟩ h).facts
          "Sub").map (Diagnostic.relocate renumber) := by
  have hbuild : (ofProgram ⟨[strictSub, laxBase]⟩).isOk = true := by cbv
  have hperm : [strictSub, laxBase].Perm [laxBase, strictSub] := .swap _ _ _
  obtain ⟨haccepted, hsame⟩ :=
    checkAll_of_perm ⟨[strictSub, laxBase]⟩ ⟨[laxBase, strictSub]⟩ hperm
  cases hok : ofProgram ⟨[strictSub, laxBase]⟩ with
  | error refusal => simp [hok, Except.isOk, Except.toBool] at hbuild
  | ok h =>
      obtain ⟨h', hok'⟩ := haccepted.mp ⟨h, hok⟩
      obtain ⟨renumber, -, hmethods, hconfigs⟩ := hsame h h' hok hok'
      obtain ⟨-, rfl⟩ := ofProgram_eq_ok_iff.mp hok
      obtain ⟨-, rfl⟩ := ofProgram_eq_ok_iff.mp hok'
      refine ⟨_, _, renumber, rfl, hok', by cbv, ?_, (hconfigs Config.standard).1 "Sub"⟩
      have hsub := hmethods ⟨0⟩ ⟨1⟩ "Sub" (by cbv) (by cbv)
      have hlisted : (hierarchy ⟨[laxBase, strictSub]⟩).declaredMethods ⟨1⟩ = [⟨2⟩] := by cbv
      have hlisted' : (hierarchy ⟨[strictSub, laxBase]⟩).declaredMethods ⟨0⟩ = [⟨0⟩] := by cbv
      rw [hlisted, hlisted'] at hsub
      simpa using hsub.symm

end Program

end FieldContracts
