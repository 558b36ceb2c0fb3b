import NativeBindings.Proofs.Generation.Resolution
import NativeBindings.Proofs.Host.Mapping

/-!
# Names of wrapper classes

Classes are told apart by the exports of their destructors, which hold their native names. Wrapper
classes have host names, and nothing tells these apart: aliases and primitives can make two classes
meet in one.
-/

namespace NativeBindings

open NativeType

variable {settings : GeneratorSettings} {tree : Declarations} {result : Generated}

/-- Two names come out as one, given the names that stand in for them. -/
inductive NamesMeet (a b : String) (a' b' : Option String) : Prop where
  | both {name : String} (ha : a' = some name) (hb : b' = some name)
  | first (ha : a' = some b) (hb : b' = none)
  | second (ha : a' = none) (hb : b' = some a)

theorem getD_eq_getD_iff {a b : String} (h : a ≠ b) (a' b' : Option String) :
    a'.getD a = b'.getD b ↔ NamesMeet a b a' b' := by
  constructor
  · intro heq
    cases a' with
    | none =>
      cases b' with
      | none => exact absurd heq h
      | some name => exact .second rfl (congrArg some heq.symm)
    | some name =>
      cases b' with
      | none => exact .first (congrArg some heq) rfl
      | some other => exact .both rfl (congrArg some heq.symm)
  · rintro (⟨rfl, rfl⟩ | ⟨rfl, rfl⟩ | ⟨rfl, rfl⟩) <;> rfl

namespace AliasTable

variable {table : AliasTable} {a b : String}

/-- The host name that stands in for a name: that of its primitive, else its alias. -/
def replacement? (table : AliasTable) (native : String) : Option String :=
  ((HostPrimitive.ofNative? native).map (·.keyword)).or (table.find? native)

theorem resolve_eq_getD (table : AliasTable) (native : String) :
    table.resolve native = (table.replacement? native).getD native := by
  rw [resolve, replacement?]
  cases HostPrimitive.ofNative? native <;> rfl

theorem resolve_eq_iff (h : a ≠ b) :
    table.resolve a = table.resolve b ↔
      NamesMeet a b (table.replacement? a) (table.replacement? b) := by
  rw [resolve_eq_getD, resolve_eq_getD]
  exact getD_eq_getD_iff h _ _

theorem hostName_noMark (table : AliasTable) {name : String}
    (h : ∀ c ∈ name.toList, isMark c = false) : table.hostName name = table.resolve name := by
  rw [hostName, hostSpelling_noMark h, String.ofList_toList, String.ofList_toList]

end AliasTable

namespace GeneratorSettings

/-- The names of two classes meet in the primitives and aliases. -/
def WrappersMeet (settings : GeneratorSettings) (c d : ScopedClass) : Prop :=
  NamesMeet c.name d.name (settings.aliases.replacement? c.name)
    (settings.aliases.replacement? d.name)

theorem wrapperNames_assemble (settings : GeneratorSettings) (tree : Declarations) :
    (settings.assemble tree).bindings.classes.map (·.wrapperName) =
      (settings.selectedClasses tree).map fun c => settings.aliases.hostName c.name := by
  rw [bindings_assemble, List.map_map, ← settings.classAccounts_owner tree, List.map_map]
  rfl

theorem emitted_assemble (valid : tree.validate = .ok ()) (unqualified : tree.HasUnqualifiedNames) :
    (settings.assemble tree).emitted tree = settings.selectedClasses tree := by
  have hclasses : tree.scopedClasses.Nodup :=
    List.Nodup.of_map _ (Declarations.qualifiedNames_nodup valid unqualified)
  have hemitted : ((settings.assemble tree).emitted tree).Sublist tree.scopedClasses :=
    List.filter_sublist
  have hselected := settings.selectedClasses_sublist tree
  apply (hclasses.perm_iff_eq_of_sublist hemitted hselected).mp
  apply (List.perm_ext_iff_of_nodup (hclasses.sublist hemitted) (hclasses.sublist hselected)).mpr
  exact fun c => mem_emitted_iff valid unqualified

end GeneratorSettings

/-- Over unqualified names, each emitted class has one wrapper class, in the same order, with the
name that the report gives. Wrapper classes differ in their names unless two emitted classes have
one host name; for names without blanks, stars and references, they have if their names meet in the
primitives and aliases. -/
theorem wrapper_names_distinct_iff (unqualified : tree.HasUnqualifiedNames)
    (h : settings.generate tree = .ok result) :
    result.report.wrappers = ((result.emitted tree).map fun c =>
        (c.qualifiedName, settings.aliases.hostName c.name)) ∧
      result.bindings.classes.map (·.wrapperName) = result.report.wrappers.map (·.2) ∧
      ((result.bindings.classes.map (·.wrapperName)).Nodup ↔
        ∀ c ∈ result.emitted tree, ∀ d ∈ result.emitted tree, c ≠ d →
          settings.aliases.hostName c.name ≠ settings.aliases.hostName d.name) ∧
      ∀ c ∈ result.emitted tree, ∀ d ∈ result.emitted tree, c ≠ d →
        (∀ ch ∈ c.name.toList ++ d.name.toList, isMark ch = false) →
          (settings.aliases.hostName c.name = settings.aliases.hostName d.name ↔
            settings.WrappersMeet c d) := by
  obtain ⟨valid, rfl⟩ := GeneratorSettings.generate_eq_ok_iff.mp h
  rw [GeneratorSettings.emitted_assemble valid unqualified]
  have hnames := settings.names_selectedClasses_nodup tree
  refine ⟨settings.wrappers_assemble tree, ?_, ?_, ?_⟩
  · rw [settings.wrapperNames_assemble, settings.wrappers_assemble, List.map_map]
    rfl
  · rw [settings.wrapperNames_assemble, List.nodup_map_iff_inj_on (List.Nodup.of_map _ hnames)]
    constructor
    · intro hinj c hc d hd hne heq
      exact hne (hinj c hc d hd heq)
    · intro hdistinct c hc d hd heq
      by_contra hne
      exact hdistinct c hc d hd hne heq
  · intro c hc d hd hne hmarks
    have hname : c.name ≠ d.name := fun heq => hne (List.inj_on_of_nodup_map hnames hc hd heq)
    rw [settings.aliases.hostName_noMark fun ch hch => hmarks ch (List.mem_append_left _ hch),
      settings.aliases.hostName_noMark fun ch hch => hmarks ch (List.mem_append_right _ hch)]
    exact AliasTable.resolve_eq_iff hname

theorem wrapper_names_distinct_iff_nested :
    Declarations.nested.HasUnqualifiedNames ∧
      ∃ result, GeneratorSettings.default.generate .nested = .ok result ∧
        result.bindings.classes.map (·.wrapperName) =
          ["ParsedJsonN", "ParsedJsonIteratorN", "Other"] ∧
        ∀ c ∈ result.emitted .nested, ∀ d ∈ result.emitted .nested, c ≠ d →
          ¬ GeneratorSettings.default.WrappersMeet c d := by
  have hnames : Declarations.nested.HasUnqualifiedNames := by decide +kernel
  have h : GeneratorSettings.default.generate .nested =
      .ok (GeneratorSettings.default.assemble .nested) :=
    GeneratorSettings.generate_eq_ok_iff.mpr ⟨rfl, rfl⟩
  have hmarks : ∀ c ∈ Declarations.nested.scopedClasses,
      (c.name.toList.all fun ch => !isMark ch) = true := by
    decide +kernel
  obtain ⟨-, -, hdistinct, hmeet⟩ := wrapper_names_distinct_iff hnames h
  have hnodup := hdistinct.mp (by decide +kernel)
  refine ⟨hnames, _, h, by decide +kernel, ?_⟩
  intro c hc d hd hne
  have hplain : ∀ ch ∈ c.name.toList ++ d.name.toList, isMark ch = false :=
    List.forall_mem_append.mpr ⟨noMark_of_all (hmarks c (List.mem_of_mem_filter hc)),
      noMark_of_all (hmarks d (List.mem_of_mem_filter hd))⟩
  exact (hmeet c hc d hd hne hplain).not.mp (hnodup c hc d hd hne)

def Declarations.wrapped : Declarations :=
  ⟨none, [.ofName "ParsedJson", .ofName "ParsedJsonN"]⟩

/-- Two classes with different names are emitted under one. -/
theorem wrapper_name_shared :
    Declarations.wrapped.HasUnqualifiedNames ∧
      ∃ result, GeneratorSettings.default.generate .wrapped = .ok result ∧
        (result.emitted .wrapped).map (·.name) = ["ParsedJson", "ParsedJsonN"] ∧
        result.bindings.classes.map (·.wrapperName) = ["ParsedJsonN", "ParsedJsonN"] :=
  ⟨by decide +kernel, GeneratorSettings.default.assemble .wrapped,
    GeneratorSettings.generate_eq_ok_iff.mpr ⟨rfl, rfl⟩, by decide +kernel, by decide +kernel⟩

end NativeBindings
