import FieldContracts.Check.Whole
import FieldContracts.Proofs.Check.Stages
import FieldContracts.Proofs.Hierarchy.Coherence
import Mathlib.Data.List.Nodup

/-!
# Where diagnostics are located

Every diagnostic is located at the method under check.  The reports on a whole hierarchy therefore
fall into one block for each class: `reportsIn_eq_checkClass` says that the diagnostics located in
the methods of a class are those of checking this class alone, and `checkAll_eq_flatMap_reportsIn`
that the blocks follow each other in the order of registration.
-/

namespace FieldContracts

/-- If no entry of a block has the label, none is kept. -/
theorem filter_flatMap_eq_nil {α β γ : Type} [BEq γ] [LawfulBEq γ] {l : List α}
    {block : α → List β} {label : β → γ} {wanted : γ}
    (hother : ∀ a ∈ l, ∀ b ∈ block a, label b ≠ wanted) :
    (l.flatMap block).filter (fun b => label b == wanted) = [] := by
  rw [List.filter_eq_nil_iff]
  intro b hb hlabel
  obtain ⟨a, ha, hb⟩ := List.mem_flatMap.mp hb
  exact hother a ha b hb (eq_of_beq hlabel)

/-- If the label is that of one block, exactly this block is kept. -/
theorem filter_flatMap_eq_block {α β γ : Type} [BEq γ] [LawfulBEq γ] {l : List α}
    {block : α → List β} {label : β → γ} {wanted : γ} {a : α} (hnodup : l.Nodup) (ha : a ∈ l)
    (hself : ∀ b ∈ block a, label b = wanted)
    (hother : ∀ a' ∈ l, a' ≠ a → ∀ b ∈ block a', label b ≠ wanted) :
    (l.flatMap block).filter (fun b => label b == wanted) = block a := by
  obtain ⟨before, after, rfl⟩ := List.append_of_mem ha
  rw [List.nodup_append, List.nodup_cons] at hnodup
  obtain ⟨-, ⟨hafter, -⟩, hbefore⟩ := hnodup
  have hfirst : (before.flatMap block).filter (fun b => label b == wanted) = [] :=
    filter_flatMap_eq_nil fun a' ha' =>
      hother a' (List.mem_append_left _ ha') (hbefore a' ha' a List.mem_cons_self)
  have hlast : (after.flatMap block).filter (fun b => label b == wanted) = [] :=
    filter_flatMap_eq_nil fun a' ha' =>
      hother a' (List.mem_append_right _ (List.mem_cons_of_mem _ ha')) fun heq =>
        hafter (heq ▸ ha')
  have hkept : (block a).filter (fun b => label b == wanted) = block a :=
    List.filter_eq_self.mpr fun b hb => beq_iff_eq.mpr (hself b hb)
  rw [List.flatMap_append, List.flatMap_cons, List.filter_append, List.filter_append, hfirst,
    hlast, hkept, List.nil_append, List.append_nil]

variable {h : Hierarchy} {facts : ExitFacts} {c : ClassId} {m : MethodId} {d : Diagnostic}
  {name : String}

namespace Rule

/-- A rule reports at the method that it is applied to. -/
theorem location_of_mem_check {rule : Rule} (hd : d ∈ (rule.check h facts m).diagnostics) :
    d.location = h.location m := by
  rw [diagnostics_check, reports, List.mem_append, List.mem_map, List.mem_map] at hd
  rcases hd with ⟨fault, -, rfl⟩ | ⟨conflict, -, rfl⟩
  · rfl
  · rfl

end Rule

namespace Hierarchy

/-- The name of the class that declares the method. -/
def ownerName? (h : Hierarchy) (m : MethodId) : Option String :=
  (h.method? m).bind fun decl => h.className? decl.owner

theorem ownerName?_of_mem_declaredMethods (hco : h.Coherent) (hm : m ∈ h.declaredMethods c) :
    h.ownerName? m = h.className? c := by
  obtain ⟨decl, hdecl, rfl⟩ := hco.owned c m hm
  rw [ownerName?, hdecl, Option.bind_some]

end Hierarchy

namespace Config

open Hierarchy

variable (config : Config)

theorem location_of_mem_checkMethod {config : Config} (hd : d ∈ config.checkMethod h facts m) :
    d.location = h.location m := by
  obtain ⟨rule, -, hd⟩ := List.mem_flatMap.mp hd
  exact Rule.location_of_mem_check hd

theorem method_of_mem_checkMethod {config : Config} (hd : d ∈ config.checkMethod h facts m) :
    d.location.method = m := by
  rw [location_of_mem_checkMethod hd]
  rfl

/-- Checking a class reports at its methods only. -/
theorem mem_declaredMethods_of_mem_checkClass {config : Config}
    (hd : d ∈ config.checkClass h facts c) : d.location.method ∈ h.declaredMethods c := by
  obtain ⟨m, hm, hd⟩ := List.mem_flatMap.mp hd
  rw [method_of_mem_checkMethod hd]
  exact hm

/-- The diagnostics located in the methods of the class of this name. -/
def reportsIn (config : Config) (h : Hierarchy) (facts : ExitFacts) (name : String) :
    List Diagnostic :=
  (config.checkAll h facts).filter fun d => h.ownerName? d.location.method == some name

theorem ownerName?_of_mem_checkClass {config : Config} (hco : h.Coherent)
    (hd : d ∈ config.checkClass h facts c) :
    h.ownerName? d.location.method = h.className? c :=
  ownerName?_of_mem_declaredMethods hco (mem_declaredMethods_of_mem_checkClass hd)

/-- The block of a class is what checking this class alone reports. -/
theorem reportsIn_eq_checkClass (hco : h.Coherent) (hname : h.className? c = some name) :
    config.reportsIn h facts name = config.checkClass h facts c := by
  have hmem : c ∈ h.classIds := mem_classIds.mpr (exists_className?_iff.mp ⟨name, hname⟩)
  unfold reportsIn checkAll
  refine filter_flatMap_eq_block nodup_classIds hmem (fun d hd => ?_) fun e _ hne d hd => ?_
  · rw [ownerName?_of_mem_checkClass hco hd, hname]
  -- No other class has the name, so nothing of another block is kept.
  · rw [ownerName?_of_mem_checkClass hco hd]
    exact fun hsame => hne (hco.name_unique e c name hsame hname)

/-- A name that no class has is the name of no block. -/
theorem reportsIn_eq_nil (hco : h.Coherent) (hname : ∀ c, h.className? c ≠ some name) :
    config.reportsIn h facts name = [] := by
  unfold reportsIn checkAll
  refine filter_flatMap_eq_nil fun c _ d hd => ?_
  rw [ownerName?_of_mem_checkClass hco hd]
  exact hname c

/-- The blocks follow each other in the order in which the classes are registered. -/
theorem checkAll_eq_flatMap_reportsIn (hco : h.Coherent) {names : List String}
    (hnames : ∀ c, h.className? c = names[c.index]?) :
    config.checkAll h facts = names.flatMap (config.reportsIn h facts) := by
  have hids : h.classIds.map h.className? = names.map some := by
    refine List.ext_getElem? fun i => ?_
    rw [List.getElem?_map, List.getElem?_map]
    by_cases hi : i < h.classCount
    · obtain ⟨name, hname⟩ := exists_className?_iff.mpr (show (⟨i⟩ : ClassId).index < _ from hi)
      have hplace : names[i]? = some name := (hnames ⟨i⟩).symm.trans hname
      simp [classIds, hi, hplace, hname]
    · have hnone : names[i]? = none := by
        rw [← hnames ⟨i⟩]
        exact className?_eq_none_iff.mpr (Nat.not_lt.mp hi)
      simp [classIds, hnone, Nat.not_lt.mp hi]
  have hblocks : ∀ c ∈ h.classIds, config.checkClass h facts c =
      ((h.className? c).map (config.reportsIn h facts)).getD [] := by
    intro c hc
    obtain ⟨name, hname⟩ := exists_className?_iff.mpr (mem_classIds.mp hc)
    rw [hname, Option.map_some, Option.getD_some, reportsIn_eq_checkClass config hco hname]
  unfold checkAll
  rw [List.flatMap_congr hblocks, List.flatMap_def]
  have hmap : h.classIds.map (fun c => ((h.className? c).map (config.reportsIn h facts)).getD []) =
      names.map (config.reportsIn h facts) := by
    have hthrough := congrArg
      (List.map fun found => (found.map (config.reportsIn h facts)).getD []) hids
    rw [List.map_map, List.map_map] at hthrough
    exact hthrough
  rw [hmap, ← List.flatMap_def]

end Config

end FieldContracts
