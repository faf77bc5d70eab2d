import FieldContracts.Proofs.Program.Description
import FieldContracts.Proofs.Program.ExitFacts
import Mathlib

/-!
# Describing what a description builds

A description that builds a hierarchy is also the description of what it builds, up to the exit
facts, which no hierarchy holds.  `describeClass_entry` follows one class: names lead to identities
and back to the names, and methods to their numbers and back.  `toProgram_ofProgram` says it of
whole descriptions, and that a hierarchy built from the description of another has the same one.
-/

namespace FieldContracts

/-- The description of the method with nothing said of its exits. -/
def MethodDesc.withoutExitFacts (method : MethodDesc) : MethodDesc :=
  { method with nonNullAtExit := none }

/-- The description of the class with nothing said of the exits of its methods. -/
def ClassDesc.withoutExitFacts (desc : ClassDesc) : ClassDesc :=
  { desc with methods := desc.methods.map MethodDesc.withoutExitFacts }

/-- The description with nothing said of the exits of methods. -/
def Program.withoutExitFacts (p : Program) : Program :=
  ⟨p.classes.map ClassDesc.withoutExitFacts⟩

namespace Program

open Hierarchy

variable {p : Program} {h : Hierarchy} {desc : ClassDesc} {i : Nat}

/-! ## From names to identities and back -/

theorem classNames_map_classId (hwf : p.WellFormed) {names : List String}
    (hnames : ∀ name ∈ names, name ∈ p.classNames) :
    p.hierarchy.classNames (names.map p.classId) = names := by
  have hback : ∀ name ∈ names, (p.hierarchy.className? ∘ p.classId) name = some (id name) :=
    fun name hname => className?_hierarchy_classId hwf (hnames name hname)
  unfold Hierarchy.classNames
  rw [List.filterMap_map, List.filterMap_eq_map_iff_forall_eq_some.mpr hback, List.map_id]

theorem superclass_entry (hwf : p.WellFormed) (hdesc : p.classes[i]? = some desc) :
    (p.entry i desc).superclass.bind p.hierarchy.className? = desc.superclass := by
  show (desc.superclass.map p.classId).bind _ = _
  cases hsuper : desc.superclass with
  | none => rfl
  | some name =>
      have hname : name ∈ p.classNames :=
        mem_classNames_of_mem_supertypes hwf hdesc (by simp [ClassDesc.supertypes, hsuper])
      exact className?_hierarchy_classId hwf hname

theorem interfaces_entry (hwf : p.WellFormed) (hdesc : p.classes[i]? = some desc) :
    p.hierarchy.classNames (p.entry i desc).interfaces = desc.interfaces :=
  classNames_map_classId hwf fun _ hname =>
    mem_classNames_of_mem_supertypes hwf hdesc (List.mem_append_right _ hname)

/-! ## Describing a built class -/

/-- Under the number of each method stands what its description says, exit facts left aside. -/
theorem methods_describeClass_entry (hwf : p.WellFormed) (hdesc : p.classes[i]? = some desc) :
    (p.hierarchy.describeClass (p.entry i desc)).methods =
      desc.methods.map MethodDesc.withoutExitFacts := by
  rw [methods_describeClass hwf.reachable.coherent (registered?_hierarchy hdesc),
    declaredMethods_hierarchy hdesc, List.map_map]
  refine List.ext_getElem (by simp) fun k _ hk => ?_
  have hlt : k < desc.methods.length := by simpa using hk
  have hmethod : desc.methods[k]? = some desc.methods[k] := List.getElem?_eq_getElem hlt
  simp [ownedMethod_eq (method?_methodId hdesc hmethod), MethodDesc.withoutExitFacts]

/-- The class at place `i` is described as it was. -/
theorem describeClass_entry (hwf : p.WellFormed) (hdesc : p.classes[i]? = some desc) :
    p.hierarchy.describeClass (p.entry i desc) = desc.withoutExitFacts := by
  show ClassDesc.mk desc.name ((p.entry i desc).superclass.bind p.hierarchy.className?)
    (p.hierarchy.classNames (p.entry i desc).interfaces) (p.entry i desc).decl.fields
    (p.hierarchy.describeClass (p.entry i desc)).methods = _
  rw [superclass_entry hwf hdesc, interfaces_entry hwf hdesc, fields_entry,
    methods_describeClass_entry hwf hdesc]
  rfl

theorem toProgram_hierarchy (hwf : p.WellFormed) : p.hierarchy.toProgram = p.withoutExitFacts := by
  refine congrArg Program.mk (List.ext_getElem? fun i => ?_)
  show p.hierarchy.toProgram.classes[i]? = _
  rw [getElem?_classes_toProgram, List.getElem?_map]
  cases hdesc : p.classes[i]? with
  | none =>
      have hout : p.hierarchy.classCount ≤ i :=
        classCount_hierarchy p ▸ List.getElem?_eq_none_iff.mp hdesc
      rw [registered?_eq_none_iff.mpr hout]
      rfl
  | some desc =>
      rw [registered?_hierarchy hdesc, Option.map_some, Option.map_some,
        describeClass_entry hwf hdesc]

/-- A hierarchy is described without exit facts. -/
theorem withoutExitFacts_toProgram (h : Hierarchy) :
    h.toProgram.withoutExitFacts = h.toProgram := by
  have hclass : ∀ entry, (h.describeClass entry).withoutExitFacts = h.describeClass entry := by
    intro entry
    have hmethods : (h.describeMethods entry.decl.methodIds).map MethodDesc.withoutExitFacts =
        h.describeMethods entry.decl.methodIds := by
      unfold describeMethods
      rw [List.map_filterMap]
      simp only [Option.map_map]
      rfl
    unfold ClassDesc.withoutExitFacts
    exact congrArg (ClassDesc.mk _ _ _ _) hmethods
  refine congrArg Program.mk ?_
  show (h.classes.toList.map h.describeClass).map _ = h.classes.toList.map h.describeClass
  rw [List.map_map]
  exact List.map_congr_left fun entry _ => hclass entry

/-- Whatever a description builds is described as it was, without the exit facts.  So building a
hierarchy again from its description leaves the description as it is. -/
theorem toProgram_ofProgram :
    (∀ p h, ofProgram p = .ok h → h.toProgram = p.withoutExitFacts) ∧
      ∀ ops, ∃ h', ofProgram (after ops).toProgram = .ok h' ∧
        h'.toProgram = (after ops).toProgram := by
  have hbuilt : ∀ p h, ofProgram p = .ok h → h.toProgram = p.withoutExitFacts := by
    intro p h hbuild
    obtain ⟨hwf, rfl⟩ := ofProgram_eq_ok_iff.mp hbuild
    exact toProgram_hierarchy hwf
  refine ⟨hbuilt, fun ops => ?_⟩
  have hreach : (after ops).Reachable := ⟨ops, rfl⟩
  have hwf : (after ops).toProgram.WellFormed :=
    toProgram_wellFormed hreach.wellFormed hreach.coherent
  have hrebuild := ofProgram_eq_ok hwf
  refine ⟨_, hrebuild, ?_⟩
  rw [hbuilt _ _ hrebuild, withoutExitFacts_toProgram]

/-- A class that refers to later ones, to one of them three times, and that knows the exits of one of
its two methods. -/
def kiosk : Program := ⟨[
  ⟨"Kiosk", some "Stand", ["Lit", "Stand", "Lit"], [⟨"till", false⟩, ⟨"open", true⟩], [
    ⟨⟨⟨"start", ["int", "Stand"]⟩, false, [⟨"EnsuresNonNull", ["till"]⟩]⟩, some ["till", "till"]⟩,
    ⟨⟨⟨"stop", []⟩, true, []⟩, none⟩]⟩,
  ⟨"Lit", none, [], [], [⟨⟨⟨"start", []⟩, false, []⟩, some []⟩]⟩,
  ⟨"Stand", none, ["Lit"], [⟨"till", true⟩], []⟩]⟩

/-- Steps that give two classes their members in turn, methods before fields. -/
def interleaved : List Operation := [
  .addClass "A", .addClass "B",
  .addMethod ⟨1⟩ ⟨⟨"run", []⟩, false, []⟩, .addMethod ⟨0⟩ ⟨⟨"run", []⟩, false, []⟩,
  .addField ⟨0⟩ ⟨"f", false⟩, .addMethod ⟨1⟩ ⟨⟨"stop", []⟩, true, []⟩,
  .addInterface ⟨0⟩ ⟨1⟩, .addField ⟨1⟩ ⟨"g", true⟩, .addInterface ⟨0⟩ ⟨1⟩]

theorem toProgram_ofProgram_kiosk :
    (∃ h, ofProgram kiosk = .ok h ∧ h.toProgram = kiosk.withoutExitFacts ∧
        kiosk.withoutExitFacts ≠ kiosk) ∧
      ∃ h', ofProgram (after interleaved).toProgram = .ok h' ∧ h' ≠ after interleaved ∧
        h'.toProgram = (after interleaved).toProgram := by
  have hbuild : (ofProgram kiosk).isOk = true := by cbv
  have hmethods : (after interleaved).methods[0]?.map (·.owner) = some ⟨1⟩ := by cbv
  obtain ⟨hbuilt, hrebuilt⟩ := toProgram_ofProgram
  refine ⟨?_, ?_⟩
  · obtain ⟨h, hok⟩ := exists_ok_of_isOk hbuild
    exact ⟨h, hok, hbuilt kiosk h hok, by decide⟩
  · obtain ⟨h', hok, hsame⟩ := hrebuilt interleaved
    refine ⟨h', hok, ?_, hsame⟩
    obtain ⟨-, rfl⟩ := ofProgram_eq_ok_iff.mp hok
    have hmethods' : (after interleaved).toProgram.hierarchy.methods[0]?.map (·.owner) =
        some ⟨0⟩ := by cbv
    intro heq
    rw [heq, hmethods] at hmethods'
    simp at hmethods'

end Program

end FieldContracts
