import FieldContracts.Check.Document
import FieldContracts.Program.Document
import FieldContracts.Proofs.Json.Record

/-!
# Documents read back

Every program, configuration, annotation, class, member, method and diagnostic is read back from
the document that it is written as (`roundTrips_documents`).  The identities in it are words of 32
bits; a member that has no value is left out of its object.
-/

namespace FieldContracts

open Json Layout

/-! ## Identities and names -/

theorem ClassId.lossless {c : ClassId} (h : c.index < 2 ^ 32) : ClassId.format.Lossless c :=
  (Format.lossless_index h).via rfl

theorem MethodId.lossless {m : MethodId} (h : m.index < 2 ^ 32) : MethodId.format.Lossless m :=
  (Format.lossless_index h).via rfl

theorem lossless_texts (names : List String) : Format.text.list.Lossless names :=
  Format.lossless_list fun s _ => Format.lossless_text s

theorem InvalidPolicy.lossless (p : InvalidPolicy) : InvalidPolicy.format.Lossless p := by
  cases p <;> exact Reader.reads_variant_bare rfl

theorem DiagnosticKind.lossless (k : DiagnosticKind) : DiagnosticKind.format.Lossless k := by
  cases k <;> exact Reader.reads_variant_bare rfl

/-! ## Classes -/

theorem FieldDecl.lossless (f : FieldDecl) : FieldDecl.layout.format.Lossless f :=
  Layout.lossless (by decide) <|
    .cons (Slot.transfers_required (Format.lossless_text _)) <|
    .cons (Slot.transfers_required (Format.lossless_flag _)) .nil

theorem FieldDecl.lossless_described (f : FieldDecl) :
    FieldDecl.describedLayout.format.Lossless f :=
  Layout.lossless (by decide) <|
    .cons (Slot.transfers_required (Format.lossless_text _)) <|
    .cons (Slot.transfers_defaulted (Format.lossless_flag _)) .nil

theorem Member.lossless {m : Member} (h : ∀ id ∈ m.methodId?, id.index < 2 ^ 32) :
    Member.format.Lossless m := by
  cases m with
  | field decl => exact Reader.reads_variant_holding rfl (decl.lossless.map Member.field)
  | method id =>
      exact Reader.reads_variant_holding rfl ((MethodId.lossless (h id rfl)).map Member.method)

theorem ClassDecl.lossless {c : ClassDecl} (hid : c.id.index < 2 ^ 32)
    (hmembers : ∀ id ∈ c.methodIds, id.index < 2 ^ 32) : ClassDecl.layout.format.Lossless c := by
  have hmember : ∀ m ∈ c.members, Member.format.Lossless m := fun m hm =>
    Member.lossless fun id hid => hmembers id (List.mem_filterMap.mpr ⟨m, hm, hid⟩)
  exact Layout.lossless (by decide) <|
    .cons (Slot.transfers_required (ClassId.lossless hid)) <|
    .cons (Slot.transfers_required (Format.lossless_text _)) <|
    .cons (Slot.transfers_required (Format.lossless_list hmember)) .nil

theorem Annotation.lossless (a : Annotation) : Annotation.layout.format.Lossless a :=
  Layout.lossless (by decide) <|
    .cons (Slot.transfers_required (Format.lossless_text _)) <|
    .cons (Slot.transfers_defaulted (lossless_texts _)) .nil

theorem lossless_annotations (annotations : List Annotation) :
    Annotation.layout.format.list.Lossless annotations :=
  Format.lossless_list fun a _ => a.lossless

theorem MethodDecl.lossless {m : MethodDecl} (hid : m.id.index < 2 ^ 32)
    (howner : m.owner.index < 2 ^ 32) : MethodDecl.layout.format.Lossless m :=
  Layout.lossless (by decide) <|
    .cons (Slot.transfers_required (MethodId.lossless hid)) <|
    .cons (Slot.transfers_required (ClassId.lossless howner)) <|
    .cons (Slot.transfers_required (Format.lossless_text _)) <|
    .cons (Slot.transfers_required (lossless_texts _)) <|
    .cons (Slot.transfers_required (Format.lossless_flag _)) <|
    .cons (Slot.transfers_required (lossless_annotations _)) .nil

/-! ## Descriptions -/

theorem MethodDesc.lossless (m : MethodDesc) : MethodDesc.layout.format.Lossless m :=
  Layout.lossless (by decide) <|
    .cons (Slot.transfers_required (Format.lossless_text _)) <|
    .cons (Slot.transfers_defaulted (lossless_texts _)) <|
    .cons (Slot.transfers_defaulted (Format.lossless_flag _)) <|
    .cons (Slot.transfers_defaulted (lossless_annotations _)) <|
    .cons (Slot.transfers_optional
      (fun names _ => ⟨lossless_texts names, by simp [Format.list]⟩) rfl) .nil

theorem ClassDesc.lossless (c : ClassDesc) : ClassDesc.layout.format.Lossless c :=
  Layout.lossless (by decide) <|
    .cons (Slot.transfers_required (Format.lossless_text _)) <|
    .cons (Slot.transfers_optional
      (fun s _ => ⟨Format.lossless_text s, by simp [Format.text]⟩) rfl) <|
    .cons (Slot.transfers_defaulted (lossless_texts _)) <|
    .cons (Slot.transfers_defaulted (Format.lossless_list fun f _ => f.lossless_described)) <|
    .cons (Slot.transfers_defaulted (Format.lossless_list fun m _ => m.lossless)) .nil

theorem Program.lossless (p : Program) : Program.layout.format.Lossless p :=
  Layout.lossless (by decide) <|
    .cons (Slot.transfers_defaulted (Format.lossless_list fun c _ => c.lossless)) .nil

/-! ## Configurations and diagnostics -/

theorem Config.lossless (c : Config) : Config.layout.format.Lossless c :=
  Layout.lossless (by decide) <|
    .cons (Slot.transfers_defaulted (Format.lossless_text _)) <|
    .cons (Slot.transfers_defaulted (Format.lossless_text _)) <|
    .cons (Slot.transfers_defaulted (InvalidPolicy.lossless _)) .nil

theorem Location.lossless {l : Location} (h : l.method.index < 2 ^ 32) :
    Location.layout.format.Lossless l :=
  Layout.lossless (by decide) <|
    .cons (Slot.transfers_required (MethodId.lossless h)) <|
    .cons (Slot.transfers_required (Format.lossless_text _)) .nil

theorem Diagnostic.lossless {d : Diagnostic} (h : d.location.method.index < 2 ^ 32) :
    Diagnostic.layout.format.Lossless d :=
  Layout.lossless (by decide) <|
    .cons (Slot.transfers_required (DiagnosticKind.lossless _)) <|
    .cons (Slot.transfers_required (Format.lossless_text _)) <|
    .cons (Slot.transfers_required (Location.lossless h)) .nil

/-! ## The documents -/

/-- The superclass is written exactly when there is one. -/
theorem ClassDesc.lookup_superclass (c : ClassDesc) :
    (ClassDesc.layout.members c).lookup "superclass" = c.superclass.map .str := by
  have hslot := lookup_membersOf (by decide) (.tail _ (.head _) : _ ∈ ClassDesc.layout.slots) c
  exact hslot

/-- The facts at exit are written exactly when they are known, also if there are none. -/
theorem MethodDesc.lookup_nonNullAtExit (m : MethodDesc) :
    (MethodDesc.layout.members m).lookup "non_null_at_exit" =
      m.nonNullAtExit.map fun names => .arr (names.map .str) := by
  have hslot := lookup_membersOf (by decide)
    (.tail _ (.tail _ (.tail _ (.tail _ (.head _)))) : _ ∈ MethodDesc.layout.slots) m
  exact hslot

/-- Decoding undoes encoding for every kind of document, and what is absent is left out of the
document. -/
theorem roundTrips_documents :
    (∀ p : Program, Program.layout.format.RoundTrips p) ∧
    (∀ c : Config, Config.layout.format.RoundTrips c) ∧
    (∀ a : Annotation, Annotation.layout.format.RoundTrips a) ∧
    (∀ c : ClassDecl, c.id.index < 2 ^ 32 → (∀ id ∈ c.methodIds, id.index < 2 ^ 32) →
      ClassDecl.layout.format.RoundTrips c) ∧
    (∀ m : Member, (∀ id ∈ m.methodId?, id.index < 2 ^ 32) → Member.format.RoundTrips m) ∧
    (∀ m : MethodDecl, m.id.index < 2 ^ 32 → m.owner.index < 2 ^ 32 →
      MethodDecl.layout.format.RoundTrips m) ∧
    (∀ d : Diagnostic, d.location.method.index < 2 ^ 32 →
      Diagnostic.layout.format.RoundTrips d) ∧
    (∀ c : ClassDesc, ClassDesc.layout.format.RoundTrips c ∧
      (ClassDesc.layout.members c).lookup "superclass" = c.superclass.map .str) ∧
    ∀ m : MethodDesc, MethodDesc.layout.format.RoundTrips m ∧
      (MethodDesc.layout.members m).lookup "non_null_at_exit" =
        m.nonNullAtExit.map fun names => .arr (names.map .str) :=
  ⟨fun p => p.lossless.roundTrips, fun c => c.lossless.roundTrips, fun a => a.lossless.roundTrips,
    fun _ hid hmembers => (ClassDecl.lossless hid hmembers).roundTrips,
    fun _ hid => (Member.lossless hid).roundTrips,
    fun _ hid howner => (MethodDecl.lossless hid howner).roundTrips,
    fun _ hid => (Diagnostic.lossless hid).roundTrips,
    fun c => ⟨c.lossless.roundTrips, c.lookup_superclass⟩,
    fun m => ⟨m.lossless.roundTrips, m.lookup_nonNullAtExit⟩⟩

/-- A class with the largest identity, and a name that needs escapes of every form. -/
def escapedClass : ClassDecl where
  id := ⟨2 ^ 32 - 1⟩
  name := "\"\\\n\x01é"
  members := [.field ⟨"", true⟩, .method ⟨2 ^ 32 - 1⟩]

/-- A method of that class. -/
def escapedMethod : MethodDecl where
  id := ⟨2 ^ 32 - 1⟩
  owner := escapedClass.id
  signature := ⟨escapedClass.name, ["", "\t"]⟩
  isStatic := true
  annotations := [⟨"\x7f", ["\"", ""]⟩]

/-- A report on that method. -/
def escapedReport : Diagnostic where
  kind := .wrongOverridePrecondition
  message := "\r\\"
  location := ⟨escapedMethod.id, escapedClass.name⟩

theorem roundTrips_documents_escaped :
    (escapedClass.id.index < 2 ^ 32 ∧ (∀ id ∈ escapedClass.methodIds, id.index < 2 ^ 32) ∧
      ClassDecl.layout.format.RoundTrips escapedClass) ∧
    ((∀ id ∈ (Member.method escapedMethod.id).methodId?, id.index < 2 ^ 32) ∧
      Member.format.RoundTrips (.method escapedMethod.id)) ∧
    (escapedMethod.id.index < 2 ^ 32 ∧ escapedMethod.owner.index < 2 ^ 32 ∧
      MethodDecl.layout.format.RoundTrips escapedMethod) ∧
    escapedReport.location.method.index < 2 ^ 32 ∧
      Diagnostic.layout.format.RoundTrips escapedReport := by
  obtain ⟨-, -, -, hclass, hmember, hmethod, hreport, -⟩ := roundTrips_documents
  have hid : escapedMethod.id.index < 2 ^ 32 := by decide
  have hids : ∀ id ∈ escapedClass.methodIds, id.index < 2 ^ 32 := by decide
  have hmemberId : ∀ id ∈ (Member.method escapedMethod.id).methodId?, id.index < 2 ^ 32 := by
    intro id hmember
    rwa [← Option.some.inj hmember]
  exact ⟨⟨hid, hids, hclass escapedClass hid hids⟩, ⟨hmemberId, hmember _ hmemberId⟩,
    ⟨hid, hid, hmethod escapedMethod hid hid⟩, hid, hreport escapedReport hid⟩

end FieldContracts
