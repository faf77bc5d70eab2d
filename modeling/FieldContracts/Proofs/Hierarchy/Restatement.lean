import FieldContracts.Hierarchy.Ascent
import FieldContracts.Hierarchy.Override
import FieldContracts.Proofs.Contract.Declaration
import Mathlib.Data.List.Forall2
import Mathlib.Data.Option.Basic

/-!
# Hierarchies whose annotations list the same values

`RestatedBy h h'` says that `h'` differs from `h` only in how often and in which order annotations
list their values.  Everything but these lists is looked up in `h'` as in `h`
(`closestOverridden?_restated`, `entryField_restated`, `qualifiedName_restated`), and what an
annotation lists or a declaration names is the same set (`annotationValues_restated`,
`validate_restated`).
-/

namespace FieldContracts

/-- The two sets hold the same names, in whatever order. -/
def NameSet.Same (s t : NameSet) : Prop := ∀ name, name ∈ s ↔ name ∈ t

namespace NameSet.Same

variable {s s' t t' : NameSet}

theorem isEmpty (hsame : s.Same s') : s'.isEmpty = s.isEmpty := by
  rw [Bool.eq_iff_iff, NameSet.isEmpty_iff, NameSet.isEmpty_iff]
  exact forall_congr' fun name => not_congr (hsame name).symm

theorem diff (hs : s.Same s') (ht : t.Same t') : (s.diff t).Same (s'.diff t') := fun name => by
  rw [mem_diff, mem_diff, hs name, ht name]

end NameSet.Same

/-- The second annotation lists the values of the first, in whatever order and however often. -/
structure Annotation.RestatedBy (a a' : Annotation) : Prop where
  name : a'.name = a.name
  values : ∀ value, value ∈ a'.values ↔ value ∈ a.values

/-- The two methods differ only in how their annotations list their values. -/
structure MethodDecl.RestatedBy (decl decl' : MethodDecl) : Prop where
  id : decl'.id = decl.id
  owner : decl'.owner = decl.owner
  signature : decl'.signature = decl.signature
  isStatic : decl'.isStatic = decl.isStatic
  annotations : List.Forall₂ Annotation.RestatedBy decl.annotations decl'.annotations

/-- The two hierarchies differ only in how annotations list their values. -/
structure Hierarchy.RestatedBy (h h' : Hierarchy) : Prop where
  classes : h'.classes = h.classes
  methods : List.Forall₂ MethodDecl.RestatedBy h.methods.toList h'.methods.toList

/-! ## Looking up in related lists -/

/-- Related options hold related values, or both hold none. -/
theorem cases_of_rel {α β : Type} {R : α → β → Prop} {o : Option α} {o' : Option β}
    (hrel : Option.Rel R o o') :
    (o = none ∧ o' = none) ∨ ∃ a b, o = some a ∧ o' = some b ∧ R a b := by
  cases hrel with
  | none => exact Or.inl ⟨rfl, rfl⟩
  | some hvalues => exact Or.inr ⟨_, _, rfl, rfl, hvalues⟩

theorem rel_map {α β γ δ : Type} {R : α → β → Prop} {S : γ → δ → Prop} {o : Option α}
    {o' : Option β} {f : α → γ} {g : β → δ} (hrel : Option.Rel R o o')
    (hvalues : ∀ a b, R a b → S (f a) (g b)) : Option.Rel S (o.map f) (o'.map g) := by
  cases hrel with
  | none => exact .none
  | some hab => exact .some (hvalues _ _ hab)

theorem rel_bind {α β γ δ : Type} {R : α → β → Prop} {S : γ → δ → Prop} {o : Option α}
    {o' : Option β} {f : α → Option γ} {g : β → Option δ} (hrel : Option.Rel R o o')
    (hvalues : ∀ a b, R a b → Option.Rel S (f a) (g b)) : Option.Rel S (o.bind f) (o'.bind g) := by
  cases hrel with
  | none => exact .none
  | some hab => exact hvalues _ _ hab

/-- Related options are reported alike if the report does not tell related values apart. -/
theorem map_toList_of_rel {α β γ : Type} {R : α → β → Prop} {o : Option α} {o' : Option β}
    {f : α → γ} {g : β → γ} (hrel : Option.Rel R o o') (hreport : ∀ a b, R a b → g b = f a) :
    o'.toList.map g = o.toList.map f := by
  cases hrel with
  | none => rfl
  | some hvalues => exact congrArg (fun c => [c]) (hreport _ _ hvalues)

theorem rel_getElem?_of_forall₂ {α β : Type} {R : α → β → Prop} {l : List α} {l' : List β}
    (hlists : List.Forall₂ R l l') (i : Nat) : Option.Rel R l[i]? l'[i]? := by
  induction hlists generalizing i with
  | nil => exact .none
  | cons hhead _ ih =>
      cases i with
      | zero => exact .some hhead
      | succ i => simpa using ih i

/-- A test that does not tell related entries apart finds related entries. -/
theorem rel_find?_of_forall₂ {α β : Type} {R : α → β → Prop} {l : List α} {l' : List β}
    {p : α → Bool} {q : β → Bool} (hlists : List.Forall₂ R l l')
    (htest : ∀ a b, R a b → q b = p a) : Option.Rel R (l.find? p) (l'.find? q) := by
  induction hlists with
  | nil => exact .none
  | @cons a b l l' hhead _ ih =>
      rw [List.find?_cons, List.find?_cons, htest a b hhead]
      cases p a with
      | true => exact .some hhead
      | false => exact ih

namespace Hierarchy.RestatedBy

variable {h h' : Hierarchy} {c : ClassId} {m : MethodId}

/-! ## Classes -/

theorem registered?_restated (hre : h.RestatedBy h') (c : ClassId) :
    h'.registered? c = h.registered? c := by
  unfold registered?
  rw [hre.classes]

theorem class?_restated (hre : h.RestatedBy h') (c : ClassId) : h'.class? c = h.class? c := by
  unfold class?
  rw [hre.registered?_restated]

theorem className?_restated (hre : h.RestatedBy h') (c : ClassId) :
    h'.className? c = h.className? c := by
  unfold className?
  rw [hre.class?_restated]

theorem classIds_restated (hre : h.RestatedBy h') : h'.classIds = h.classIds := by
  unfold classIds classCount
  rw [hre.classes]

theorem declaredMethods_restated (hre : h.RestatedBy h') (c : ClassId) :
    h'.declaredMethods c = h.declaredMethods c := by
  unfold declaredMethods
  rw [hre.class?_restated]

theorem declaredField?_restated (hre : h.RestatedBy h') (c : ClassId) (name : String) :
    h'.declaredField? c name = h.declaredField? c name := by
  unfold declaredField?
  rw [hre.class?_restated]

theorem superclass?_restated (hre : h.RestatedBy h') (c : ClassId) :
    h'.superclass? c = h.superclass? c := by
  unfold superclass?
  rw [hre.registered?_restated]

theorem directSupertypes_restated (hre : h.RestatedBy h') (c : ClassId) :
    h'.directSupertypes c = h.directSupertypes c := by
  unfold directSupertypes interfaces
  rw [hre.superclass?_restated, hre.registered?_restated]

theorem superclassesUpTo_restated (hre : h.RestatedBy h') (bound : Nat) (c : ClassId) :
    h'.superclassesUpTo bound c = h.superclassesUpTo bound c := by
  induction bound generalizing c with
  | zero => rfl
  | succ bound ih =>
      unfold superclassesUpTo
      rw [hre.superclass?_restated]
      cases h.superclass? c with
      | none => rfl
      | some s => exact congrArg (c :: ·) (ih s)

theorem resolveField_restated (hre : h.RestatedBy h') (c : ClassId) (name : String) :
    h'.resolveField c name = h.resolveField c name := by
  unfold resolveField superclassChain classCount
  simp only [hre.classes, hre.superclassesUpTo_restated, hre.declaredField?_restated]

/-- The walk upward meets the same classes. -/
theorem preorder_restated (hre : h.RestatedBy h') (pending seen : List ClassId) :
    h'.preorder pending seen = h.preorder pending seen := by
  have hcount : h'.classCount = h.classCount := congrArg Array.size hre.classes
  fun_induction h.preorder pending seen with
  | case1 seen => exact preorder_nil seen
  | case2 seen c rest hnew ih =>
      rw [preorder_cons_of_new (hcount ▸ hnew.1) hnew.2, hre.directSupertypes_restated, ih]
  | case3 seen c rest hold ih =>
      rw [preorder_cons_of_old (hcount ▸ hold), ih]

/-! ## Methods -/

/-- The two hierarchies know the same methods. -/
theorem method?_restated (hre : h.RestatedBy h') (m : MethodId) :
    Option.Rel MethodDecl.RestatedBy (h.method? m) (h'.method? m) := by
  unfold method?
  rw [← Array.getElem?_toList, ← Array.getElem?_toList]
  exact rel_getElem?_of_forall₂ hre.methods m.index

theorem overridable?_restated (hre : h.RestatedBy h') (signature : Signature) (c : ClassId) :
    h'.overridable? signature c = h.overridable? signature c := by
  unfold overridable?
  rw [hre.declaredMethods_restated]
  congr 1
  funext m
  rcases cases_of_rel (hre.method?_restated m) with ⟨hm, hm'⟩ | ⟨decl, decl', hm, hm', hdecl⟩
  · rw [hm, hm']
  · rw [hm, hm', Option.any_some, Option.any_some, hdecl.isStatic, hdecl.signature]

theorem closestOverridden?_restated (hre : h.RestatedBy h') (m : MethodId) :
    h'.closestOverridden? m = h.closestOverridden? m := by
  unfold closestOverridden?
  rcases cases_of_rel (hre.method?_restated m) with ⟨hm, hm'⟩ | ⟨decl, decl', hm, hm', hdecl⟩
  · rw [hm, hm']
    rfl
  · have hmatch : h'.overridable? decl.signature = h.overridable? decl.signature :=
      funext (hre.overridable?_restated decl.signature)
    unfold above
    rw [hm, hm', Option.bind_some, Option.bind_some, hdecl.isStatic, hdecl.owner, hdecl.signature,
      hre.directSupertypes_restated, hre.preorder_restated, hmatch]

theorem qualifiedName_restated (hre : h.RestatedBy h') (m : MethodId) :
    h'.qualifiedName m = h.qualifiedName m := by
  unfold qualifiedName
  rcases cases_of_rel (hre.method?_restated m) with ⟨hm, hm'⟩ | ⟨decl, decl', hm, hm', hdecl⟩
  · rw [hm, hm']
  · simp only [hm, hm', hdecl.owner, hdecl.signature, hre.className?_restated]

/-! ## Declarations -/

/-- What an annotation lists is the same set. -/
theorem annotationValues_restated (hre : h.RestatedBy h') (m : MethodId) (simple : String) :
    Option.Rel NameSet.Same (h.annotationValues m simple) (h'.annotationValues m simple) := by
  have htest : ∀ a a' : Annotation, a.RestatedBy a' → a'.isNamed simple = a.isNamed simple := by
    intro a a' ha
    unfold Annotation.isNamed
    rw [ha.name]
  refine rel_bind (hre.method?_restated m) fun decl decl' hdecl => ?_
  refine rel_map (rel_find?_of_forall₂ hdecl.annotations htest) fun a a' ha name => ?_
  rw [NameSet.mem_ofList, NameSet.mem_ofList, ha.values]

theorem entryField_restated (hre : h.RestatedBy h') (c : ClassId) (entry : String) :
    h'.entryField c entry = h.entryField c entry := by
  have hstatic : h'.resolvesToStatic c = h.resolvesToStatic c := funext fun name => by
    unfold resolvesToStatic
    rw [hre.resolveField_restated]
  unfold entryField plainField
  simp only [hstatic, hre.resolveField_restated, hre.className?_restated]

/-- Validity does not depend on the order of the entries, though the fault that is reported does;
and a valid declaration names the same fields. -/
theorem validate_restated (hre : h.RestatedBy h') (c : ClassId) {raw raw' : NameSet}
    (hraw : raw.Same raw') :
    (∃ error error', h.validate c raw = .error error ∧ h'.validate c raw' = .error error') ∨
      ∃ fields fields', h.validate c raw = .ok fields ∧ h'.validate c raw' = .ok fields' ∧
        fields.Same fields' := by
  have hvalid : (∃ fields', h'.validate c raw' = .ok fields') ↔
      ∃ fields, h.validate c raw = .ok fields := by
    rw [exists_validate_eq_ok_iff, exists_validate_eq_ok_iff, hraw.isEmpty]
    refine and_congr_right fun _ => forall_congr' fun entry => ?_
    rw [hre.entryField_restated, hraw entry]
  cases hfields : h.validate c raw with
  | error error =>
      refine Or.inl ?_
      cases hfields' : h'.validate c raw' with
      | error error' => exact ⟨error, error', rfl, rfl⟩
      | ok fields' =>
          obtain ⟨fields, hok⟩ := hvalid.mp ⟨fields', hfields'⟩
          rw [hfields] at hok
          cases hok
  | ok fields =>
      obtain ⟨fields', hfields'⟩ := hvalid.mpr ⟨fields, hfields⟩
      refine Or.inr ⟨fields, fields', rfl, hfields', fun f => ?_⟩
      rw [mem_of_validate_iff hfields, mem_of_validate_iff hfields']
      refine exists_congr fun entry => ?_
      rw [hre.entryField_restated, hraw entry]

end Hierarchy.RestatedBy

end FieldContracts
