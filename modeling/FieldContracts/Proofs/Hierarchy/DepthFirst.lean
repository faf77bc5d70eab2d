import FieldContracts.Hierarchy.Override
import FieldContracts.Proofs.Hierarchy.NearestField

/-!
# The walk upward against the plain recursion

`DepthFirst` lists what lies above some classes by plain recursion: a class, then all that lies
above it, with repetitions.  The walk skips a class that it has seen.  `findSome?_preorder_eq` says
that a search along the walk finds what a search along the plain listing finds first.  This rests
on the absence of cycles: a class that is met again is not on the way to itself, so all that lies
above it has either been searched in vain or is still ahead, behind a class above it.
-/

namespace FieldContracts

/-- A place in one of two lists that are put together. -/
theorem append_eq_append_cons {α : Type} {xs ys front back : List α} {x : α}
    (hsplit : xs ++ ys = front ++ x :: back) :
    (∃ mid, xs = front ++ x :: mid ∧ back = mid ++ ys) ∨
      ∃ mid, front = xs ++ mid ∧ ys = mid ++ x :: back := by
  rcases List.append_eq_append_iff.mp hsplit with ⟨mid, hfront, hys⟩ | ⟨mid, hxs, hback⟩
  · exact Or.inr ⟨mid, hfront, hys⟩
  · cases mid with
    | nil => exact Or.inr ⟨[], by rw [hxs, List.append_nil, List.append_nil], hback.symm⟩
    | cons first mid =>
        obtain ⟨rfl, hrest⟩ := List.cons.inj hback
        exact Or.inl ⟨mid, hxs, hrest⟩

namespace Hierarchy

variable {h : Hierarchy} {c s : ClassId}

/-- What lies above a class are its direct supertypes and what lies above these. -/
theorem strictSupertype_iff {x : ClassId} :
    h.StrictSupertype c x ↔ ∃ d ∈ h.directSupertypes c, x = d ∨ h.StrictSupertype d x := by
  constructor
  · intro hx
    obtain ⟨d, hd, hx⟩ := Relation.TransGen.head'_iff.mp hx
    rcases Relation.reflTransGen_iff_eq_or_transGen.mp hx with rfl | hx
    · exact ⟨x, hd, Or.inl rfl⟩
    · exact ⟨d, hd, Or.inr hx⟩
  · rintro ⟨d, hd, rfl | hx⟩
    · exact .single hd
    · exact .trans (.single hd) hx

/-- The classes `cs` and all classes above them, listed by plain recursion: each class before what
lies above it, the superclass before the interfaces, and one class as often as it is reached. -/
inductive DepthFirst (h : Hierarchy) : List ClassId → List ClassId → Prop
  | nil : DepthFirst h [] []
  | cons {c : ClassId} {rest below tail : List ClassId}
      (hbelow : DepthFirst h (h.directSupertypes c) below) (htail : DepthFirst h rest tail) :
      DepthFirst h (c :: rest) (c :: below ++ tail)

namespace DepthFirst

theorem append {cs ds xs ys : List ClassId} (hxs : h.DepthFirst cs xs)
    (hys : h.DepthFirst ds ys) : h.DepthFirst (cs ++ ds) (xs ++ ys) := by
  induction hxs with
  | nil => exact hys
  | @cons c rest below tail hbelow _ _ ih =>
      have hcons := DepthFirst.cons hbelow ih
      rwa [← List.append_assoc] at hcons

/-- There is no more than one such listing, so what is said of some listing is said of this one. -/
theorem unique {cs xs ys : List ClassId} (hxs : h.DepthFirst cs xs)
    (hys : h.DepthFirst cs ys) : xs = ys := by
  induction hxs generalizing ys with
  | nil =>
      cases hys with
      | nil => rfl
  | cons _ _ ihbelow ihtail =>
      cases hys with
      | cons hbelow htail => rw [ihbelow hbelow, ihtail htail]

/-- The listing holds the classes it starts from and exactly the classes above these. -/
theorem mem_iff {cs xs : List ClassId} (hxs : h.DepthFirst cs xs) {x : ClassId} :
    x ∈ xs ↔ ∃ c ∈ cs, x = c ∨ h.StrictSupertype c x := by
  induction hxs with
  | nil => simp
  | @cons c rest below tail hbelow htail ihbelow ihtail =>
      rw [List.mem_append, List.mem_cons, ihbelow, ihtail, ← strictSupertype_iff,
        List.exists_mem_cons_iff]

end DepthFirst

/-- Without cycles the plain recursion ends. -/
theorem WellFormed.exists_depthFirst (hwf : h.WellFormed) (cs : List ClassId) :
    ∃ xs, h.DepthFirst cs xs := by
  have hbounded : ∀ bound cs, (∀ c ∈ cs, h.depth c < bound) → ∃ xs, h.DepthFirst cs xs := by
    intro bound
    -- Outer induction for the way upward, inner induction for the classes side by side.
    induction bound with
    | zero =>
        intro cs hcs
        cases cs with
        | nil => exact ⟨[], .nil⟩
        | cons c rest => exact absurd (hcs c List.mem_cons_self) (Nat.not_lt_zero _)
    | succ bound ihbound =>
        intro cs
        induction cs with
        | nil => exact fun _ => ⟨[], .nil⟩
        | cons c rest ihrest =>
            intro hcs
            have hc : h.depth c < bound + 1 := hcs c List.mem_cons_self
            obtain ⟨below, hbelow⟩ := ihbound (h.directSupertypes c) fun s hs => by
              have hlt : h.depth s < h.depth c := hwf.depth_lt hs
              omega
            obtain ⟨tail, htail⟩ := ihrest fun d hd => hcs d (List.mem_cons_of_mem c hd)
            exact ⟨_, .cons hbelow htail⟩
  exact hbounded (h.classCount + 1) cs fun c _ => Nat.lt_succ_of_le (depth_le_classCount h c)

/-! ## Searching along the walk -/

section Search

variable {β : Type} {f : ClassId → Option β} {pending seen order : List ClassId}

/-- The class `y` was searched in vain, and whatever a search above it can find is still ahead:
behind pending classes that lie above `y` themselves. -/
def Searched (h : Hierarchy) (f : ClassId → Option β) (pending : List ClassId) (y : ClassId) :
    Prop :=
  f y = none ∧ ∀ z, h.StrictSupertype y z → f z ≠ none →
    ∃ front back, pending = front ++ back ∧ (∀ x ∈ front, h.StrictSupertype y x) ∧
      ∃ x ∈ front, z = x ∨ h.StrictSupertype x z

/-- When a class is searched in vain, its supertypes take its place among the pending classes. -/
theorem Searched.expand {rest : List ClassId} {y : ClassId}
    (hy : h.Searched f (c :: rest) y) (hc : f c = none) :
    h.Searched f (h.directSupertypes c ++ rest) y := by
  refine ⟨hy.1, fun z hz hfz => ?_⟩
  obtain ⟨front, back, hsplit, hfront, x, hx, hxz⟩ := hy.2 z hz hfz
  cases front with
  | nil => exact absurd hx List.not_mem_nil
  | cons d front =>
      -- The class `c` heads the front part, so its supertypes lie above `y` as well.
      obtain ⟨rfl, rfl⟩ := List.cons.inj hsplit
      have hyc : h.StrictSupertype y c := hfront c List.mem_cons_self
      refine ⟨h.directSupertypes c ++ front, back, by simp, fun a ha => ?_, ?_⟩
      · rcases List.mem_append.mp ha with ha | ha
        · exact .tail hyc ha
        · exact hfront a (List.mem_cons_of_mem c ha)
      · rcases List.mem_cons.mp hx with rfl | hx
        · rcases hxz with rfl | hxz
          · exact absurd hc hfz
          · obtain ⟨d, hd, hdz⟩ := strictSupertype_iff.mp hxz
            exact ⟨d, List.mem_append_left _ hd, hdz⟩
        · exact ⟨x, List.mem_append_right _ hx, hxz⟩

theorem searched_self {rest : List ClassId} (hc : f c = none) :
    h.Searched f (h.directSupertypes c ++ rest) c := by
  refine ⟨hc, fun z hz _ => ?_⟩
  exact ⟨h.directSupertypes c, rest, rfl, fun x hx => .single hx, strictSupertype_iff.mp hz⟩

/-- Above a searched class that is met again nothing is left to find. -/
theorem Searched.none_above {rest : List ClassId} (hwf : h.WellFormed)
    (hc : h.Searched f (c :: rest) c) {z : ClassId} (hz : h.StrictSupertype c z) : f z = none := by
  by_cases hfz : f z = none
  · exact hfz
  · obtain ⟨front, back, hsplit, hfront, x, hx, -⟩ := hc.2 z hz hfz
    cases front with
    | nil => exact absurd hx List.not_mem_nil
    | cons d front =>
        -- Otherwise the class itself would head a front part that lies above it.
        obtain ⟨rfl, -⟩ := List.cons.inj hsplit
        exact absurd (hfront c List.mem_cons_self) (hwf.irreflexive c)

/-- A pending class at and above which nothing is found can be dropped. -/
theorem Searched.drop {rest : List ClassId} {y : ClassId} (hy : h.Searched f (c :: rest) y)
    (hc : f c = none) (habove : ∀ z, h.StrictSupertype c z → f z = none) :
    h.Searched f rest y := by
  refine ⟨hy.1, fun z hz hfz => ?_⟩
  obtain ⟨front, back, hsplit, hfront, x, hx, hxz⟩ := hy.2 z hz hfz
  cases front with
  | nil => exact absurd hx List.not_mem_nil
  | cons d front =>
      obtain ⟨rfl, rfl⟩ := List.cons.inj hsplit
      refine ⟨front, back, rfl, fun a ha => hfront a (List.mem_cons_of_mem c ha), x, ?_, hxz⟩
      rcases List.mem_cons.mp hx with rfl | hx
      · rcases hxz with rfl | hxz
        · exact absurd hc hfz
        · exact absurd (habove z hxz) hfz
      · exact hx

/-- A search along the walk finds the first answer of the plain recursion. -/
theorem findSome?_preorder_eq (hwf : h.WellFormed)
    (hunknown : ∀ c, h.classCount ≤ c.index → f c = none)
    (hseen : ∀ y ∈ seen, h.Searched f pending y) (horder : h.DepthFirst pending order) :
    (h.preorder pending seen).findSome? f = order.findSome? f := by
  fun_induction h.preorder pending seen generalizing order with
  | case1 seen =>
      cases horder with
      | nil => rfl
  | case2 seen c rest hnew ih =>
      cases horder with
      | @cons _ _ below tail hbelow htail =>
          rw [List.cons_append, List.findSome?_cons, List.findSome?_cons]
          cases hfc : f c with
          | some answer => rfl
          | none =>
              refine ih (fun y hy => ?_) (hbelow.append htail)
              rcases List.mem_cons.mp hy with rfl | hy
              · exact searched_self hfc
              · exact (hseen y hy).expand hfc
  | case3 seen c rest hold ih =>
      -- The class is unknown or was seen: in both cases the plain listing adds nothing for it.
      have hvain : f c = none ∧ ∀ z, h.StrictSupertype c z → f z = none := by
        by_cases hc : c.index < h.classCount
        · have hmem : c ∈ seen := Decidable.byContradiction fun hnot => hold ⟨hc, hnot⟩
          exact ⟨(hseen c hmem).1, fun z hz => (hseen c hmem).none_above hwf hz⟩
        · have hout : h.classCount ≤ c.index := Nat.not_lt.mp hc
          refine ⟨hunknown c hout, fun z hz => ?_⟩
          obtain ⟨d, hd, -⟩ := strictSupertype_iff.mp hz
          exact absurd (lt_classCount_of_directSupertype hd) hc
      cases horder with
      | @cons _ _ below tail hbelow htail =>
          have hskip : (c :: below).findSome? f = none := by
            rw [List.findSome?_eq_none_iff]
            intro x hx
            rcases List.mem_cons.mp hx with rfl | hx
            · exact hvain.1
            · obtain ⟨d, hd, rfl | hdx⟩ := hbelow.mem_iff.mp hx
              · exact hvain.2 _ (.single hd)
              · exact hvain.2 x (.trans (.single hd) hdx)
          rw [List.findSome?_append, hskip, Option.none_or]
          exact ih (fun y hy => (hseen y hy).drop hvain.1 hvain.2) htail

end Search

end Hierarchy

end FieldContracts
