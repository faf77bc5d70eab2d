import FieldContracts.Proofs.Program.ExitFacts
import Mathlib

/-!
# The exit facts of a whole description

The table of exit facts has one row for each method whose exits the description knows, under the
number of that method.  No two methods share a number, so no row replaces another one:
`size_foldl_record` counts the rows on this ground.  `facts_ofProgram` collects the number that each
method has, what the table says of it, and that the table says nothing else.
-/

namespace FieldContracts

namespace FactTable

variable {t : FactTable} {m : MethodId}

/-- Facts about a method of which nothing was known take one more row. -/
theorem size_insert (hfree : t.facts m = none) (fields : NameSet) :
    (t.insert m fields).size = t.size + 1 := by
  have hkeep : t.entries.filter (·.1 != m) = t.entries := by
    refine List.filter_eq_self.mpr fun entry hentry => ?_
    have hne : (m != entry.1) = true := List.lookup_eq_none_iff.mp hfree entry hentry
    rwa [bne_comm]
  show (t.entries.filter (·.1 != m)).length + 1 = t.entries.length + 1
  rw [hkeep]

theorem size_record (hfree : t.facts m = none) (method : MethodDesc) :
    (t.record (m, method)).size = t.size + [method].countP (·.nonNullAtExit.isSome) := by
  cases hexit : method.nonNullAtExit with
  | none => simp [record, hexit]
  | some fields => simp [record, hexit, size_insert hfree]

/-- If no method is listed twice, each one whose exits are known takes a row. -/
theorem size_foldl_record {pairs : List (MethodId × MethodDesc)}
    (hnodup : (pairs.map (·.1)).Nodup) (hfree : ∀ pair ∈ pairs, t.facts pair.1 = none) :
    (pairs.foldl record t).size =
      t.size + (pairs.map (·.2)).countP (·.nonNullAtExit.isSome) := by
  induction pairs generalizing t with
  | nil => rfl
  | cons pair rest ih =>
      obtain ⟨m, method⟩ := pair
      rw [List.map_cons, List.nodup_cons] at hnodup
      have hfirst : t.facts m = none := hfree (m, method) List.mem_cons_self
      -- The methods behind this one stay unknown to the table, since none of them is this one.
      have hrest : ∀ pair ∈ rest, (t.record (m, method)).facts pair.1 = none := by
        intro pair hpair
        have hne : pair.1 ≠ m := fun heq =>
          hnodup.1 (List.mem_map.mpr ⟨pair, hpair, heq⟩)
        rw [facts_record_of_ne hne]
        exact hfree pair (List.mem_cons_of_mem _ hpair)
      rw [List.foldl_cons, ih hnodup.2 hrest, size_record hfirst, Nat.add_assoc,
        ← List.countP_append]
      rfl

end FactTable

namespace Program

open Hierarchy

variable {p : Program} {h : Hierarchy} {desc : ClassDesc} {m : MethodId}

theorem length_ownedMethods (classes : List ClassDesc) :
    (ownedMethods classes).length = (classes.map (·.methods.length)).sum := by
  unfold ownedMethods
  rw [List.length_flatten]
  congr 1
  ext1 j
  simp [Function.comp_def]

theorem map_snd_numberedMethods (hwf : p.WellFormed) (hdesc : desc ∈ p.classes) :
    (p.numberedMethods desc).map (·.2) = desc.methods := by
  obtain ⟨i, hplace⟩ := List.getElem?_of_mem hdesc
  unfold numberedMethods
  rw [hwf.classId_of_getElem? hplace, List.map_snd_zip]
  simp [declaredMethods_hierarchy hplace]

/-- Of a number that no described method has nothing is stated. -/
theorem facts_ofProgram_eq_none (hwf : p.WellFormed) (hm : p.hierarchy.method? m = none) :
    (FactTable.ofProgram p p.hierarchy).facts m = none := by
  rw [ofProgram_eq_foldl_record hwf, FactTable.facts_foldl_record_of_not_mem]
  · exact FactTable.facts_empty m
  · rw [map_fst_flatMap_numberedMethods hwf, mem_methodOrder_iff hwf.reachable.coherent,
      mem_methodIds_iff, Nat.not_lt]
    exact method?_eq_none_iff.mp hm

theorem size_ofProgram (hwf : p.WellFormed) :
    (FactTable.ofProgram p p.hierarchy).size =
      (p.classes.flatMap (·.methods)).countP (·.nonNullAtExit.isSome) := by
  have hmethods : (p.classes.flatMap p.numberedMethods).map (·.2) =
      p.classes.flatMap (·.methods) := by
    rw [List.map_flatMap]
    exact List.flatMap_congr fun desc hdesc => map_snd_numberedMethods hwf hdesc
  have hsize := FactTable.size_foldl_record (nodup_map_fst_numberedMethods hwf)
    (t := FactTable.empty) fun row _ => FactTable.facts_empty row.1
  rw [ofProgram_eq_foldl_record hwf, hsize, hmethods]
  exact Nat.zero_add _

/-- The method at place `k` of the class at place `i` is numbered behind the methods of the classes
before and the `k` methods before it in its class.  Under this number the table has the fields that
the description of the method lists, each at its first mention, and it has no other rows. -/
theorem facts_ofProgram (hbuild : ofProgram p = .ok h) :
    (∀ i k desc method, p.classes[i]? = some desc → desc.methods[k]? = some method →
      (p.methodId i k).index = ((p.classes.take i).map (·.methods.length)).sum + k ∧
      h.className? ⟨i⟩ = some desc.name ∧
      (h.declaredMethods ⟨i⟩)[k]? = some (p.methodId i k) ∧
      h.method? (p.methodId i k) = some ⟨method.toMethodSpec, p.methodId i k, ⟨i⟩⟩ ∧
      ((FactTable.ofProgram p h).facts (p.methodId i k)).map (·.toList) =
        method.nonNullAtExit.map List.eraseDups) ∧
    (∀ m, (∀ i k desc method, p.classes[i]? = some desc → desc.methods[k]? = some method →
        m ≠ p.methodId i k) → (FactTable.ofProgram p h).facts m = none) ∧
    (FactTable.ofProgram p h).size =
      (p.classes.flatMap (·.methods)).countP (·.nonNullAtExit.isSome) := by
  obtain ⟨hwf, rfl⟩ := ofProgram_eq_ok_iff.mp hbuild
  refine ⟨fun i k desc method hdesc hmethod => ⟨?_, ?_, ?_, ?_, ?_⟩, fun m hother => ?_,
    size_ofProgram hwf⟩
  · rw [← length_ownedMethods]
    rfl
  · exact className?_hierarchy hdesc
  · have hk : k < desc.methods.length := (List.getElem?_eq_some_iff.mp hmethod).1
    rw [declaredMethods_hierarchy hdesc, List.getElem?_map, List.getElem?_range hk]
    rfl
  · exact method?_methodId hdesc hmethod
  · rw [facts_ofProgram_methodId hwf hdesc hmethod, Option.map_map]
    rfl
  · refine facts_ofProgram_eq_none hwf ?_
    cases hm : p.hierarchy.method? m with
    | none => rfl
    | some decl =>
        obtain ⟨i, k, desc, method, hdesc, hmethod, rfl, -⟩ := exists_methodId hwf hm
        exact absurd rfl (hother i k desc method hdesc hmethod)

/-- Two classes of which the first has a field and a method without a body; a field is listed twice,
and at the exits of one method none is known. -/
def ledger : Program := ⟨[
  ⟨"Ledger", none, [], [⟨"rows", false⟩], [
    ⟨⟨⟨"open", []⟩, false, []⟩, none⟩,
    ⟨⟨⟨"init", ["int"]⟩, false, []⟩, some ["rows", "owner", "rows"]⟩]⟩,
  ⟨"Entry", some "Ledger", [], [], [⟨⟨⟨"open", []⟩, false, []⟩, some []⟩]⟩]⟩

theorem facts_ofProgram_ledger :
    ∃ h, ofProgram ledger = .ok h ∧
      (FactTable.ofProgram ledger h).facts ⟨0⟩ = none ∧
      ((FactTable.ofProgram ledger h).facts ⟨1⟩).map (·.toList) = some ["rows", "owner"] ∧
      ((FactTable.ofProgram ledger h).facts ⟨2⟩).map (·.toList) = some [] ∧
      (FactTable.ofProgram ledger h).facts ⟨3⟩ = none ∧
      (FactTable.ofProgram ledger h).size = 2 := by
  have hbuild : (ofProgram ledger).isOk = true := by cbv
  obtain ⟨h, hok⟩ := exists_ok_of_isOk hbuild
  obtain ⟨hstated, hother, hsize⟩ := facts_ofProgram hok
  have hfirst := (hstated 0 0 _ _ rfl rfl).2.2.2.2
  have hsecond := (hstated 0 1 _ _ rfl rfl).2.2.2.2
  have hthird := (hstated 1 0 _ _ rfl rfl).2.2.2.2
  refine ⟨h, hok, Option.map_eq_none_iff.mp hfirst, hsecond, hthird, hother ⟨3⟩ ?_, hsize⟩
  -- A fourth number is that of no method, since only three methods are registered.
  intro i k desc method hdesc hmethod heq
  have hregistered := lt_methodCount (hstated i k desc method hdesc hmethod).2.2.2.1
  have hcount : ledger.hierarchy.methodCount = 3 := by cbv
  obtain ⟨-, rfl⟩ := ofProgram_eq_ok_iff.mp hok
  rw [← heq, hcount] at hregistered
  exact Nat.lt_irrefl 3 hregistered

end Program

end FieldContracts
