/-!
# Ordered sets of names

A `NameSet` lists distinct names in the order of their first mention.  `mem_ofList` says that
`NameSet.ofList` forgets only repetitions, and `toList_ofList_of_nodup` that it keeps a list
without repetitions as it is.
-/

namespace FieldContracts

theorem nodup_eraseDups (names : List String) : names.eraseDups.Nodup := by
  match names with
  | [] => simp
  | name :: rest =>
    rw [List.eraseDups_cons, List.nodup_cons]
    refine ⟨?_, nodup_eraseDups _⟩
    simp [List.mem_eraseDups]
termination_by names.length
decreasing_by exact Nat.lt_succ_of_le (List.length_filter_le _ rest)

/-- Distinct names, in the order of their first mention. -/
structure NameSet where
  toList : List String
  nodup : toList.Nodup
deriving DecidableEq, Repr

namespace NameSet

@[ext]
theorem ext {s t : NameSet} (h : s.toList = t.toList) : s = t := by
  cases s; cases t; simp_all

instance : Membership String NameSet := ⟨fun s name => name ∈ s.toList⟩

instance (name : String) (s : NameSet) : Decidable (name ∈ s) :=
  inferInstanceAs (Decidable (name ∈ s.toList))

@[simp]
theorem mem_toList {name : String} {s : NameSet} : name ∈ s.toList ↔ name ∈ s := Iff.rfl

def empty : NameSet := ⟨[], List.nodup_nil⟩

instance : Inhabited NameSet := ⟨empty⟩

/-- Keeps the first occurrence of each name. -/
def ofList (names : List String) : NameSet :=
  ⟨names.eraseDups, nodup_eraseDups names⟩

@[simp]
theorem mem_ofList {name : String} {names : List String} :
    name ∈ ofList names ↔ name ∈ names :=
  List.mem_eraseDups

theorem toList_ofList_of_nodup {names : List String} (h : names.Nodup) :
    (ofList names).toList = names := by
  induction names with
  | nil => rfl
  | cons name rest ih =>
    obtain ⟨hnot, hrest⟩ := List.nodup_cons.mp h
    have hkeep : rest.filter (fun other => !other == name) = rest :=
      List.filter_eq_self.mpr fun other hother => by
        simp only [Bool.not_eq_true', beq_eq_false_iff_ne]
        exact fun heq => hnot (heq ▸ hother)
    simpa [ofList, List.eraseDups_cons, hkeep] using ih hrest

@[simp]
theorem ofList_toList (s : NameSet) : ofList s.toList = s :=
  ext (toList_ofList_of_nodup s.nodup)

def isEmpty (s : NameSet) : Bool := s.toList.isEmpty

theorem isEmpty_iff {s : NameSet} : s.isEmpty = true ↔ ∀ name, name ∉ s := by
  simp [isEmpty, List.eq_nil_iff_forall_not_mem]

/-- The names of `s` that `t` lacks, in the order of `s`. -/
def diff (s t : NameSet) : NameSet :=
  ⟨s.toList.filter (· ∉ t), s.nodup.filter _⟩

@[simp]
theorem mem_diff {name : String} {s t : NameSet} :
    name ∈ s.diff t ↔ name ∈ s ∧ name ∉ t := by
  simp [diff, ← mem_toList, List.mem_filter]

/-- Nothing is left of a set without the names of a set that includes it. -/
theorem isEmpty_diff_iff {s t : NameSet} :
    (s.diff t).isEmpty = true ↔ ∀ name ∈ s, name ∈ t := by
  simp [isEmpty_iff]

/-- The names separated by a comma and a blank. -/
def listed (s : NameSet) : String := String.intercalate ", " s.toList

end NameSet

end FieldContracts
