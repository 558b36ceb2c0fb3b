import NativeBindings.Proofs.Documents.Emission
import NativeBindings.Proofs.Generation.Exports

/-!
# Exports read from documents

A run reports exactly the exports that can be read from its glue, and the imports that can be read
from its bindings, in order. Nothing else in either document reads like one.
-/

namespace NativeBindings

open Text

/-- Everything that is written into documents besides declarations stays on its line, and no
parenthesis stands in an alias. -/
structure GeneratorSettings.IsReadable (settings : GeneratorSettings) : Prop where
  headerInclude : ConsistsOf IsInLine settings.headerInclude
  namespaceName : ConsistsOf IsInLine settings.namespaceName
  libraryReference : ConsistsOf IsInLine settings.libraryReference
  aliases : ∀ entry ∈ settings.aliases.entries, ConsistsOf IsPlain entry.2
  renames : ∀ rule ∈ settings.renames, ConsistsOf IsInLine rule.target

instance (settings : GeneratorSettings) : Decidable settings.IsReadable :=
  decidable_of_iff
    (ConsistsOf IsInLine settings.headerInclude ∧ ConsistsOf IsInLine settings.namespaceName ∧
      ConsistsOf IsInLine settings.libraryReference ∧
      (∀ entry ∈ settings.aliases.entries, ConsistsOf IsPlain entry.2) ∧
      ∀ rule ∈ settings.renames, ConsistsOf IsInLine rule.target)
    ⟨fun ⟨h₁, h₂, h₃, h₄, h₅⟩ => ⟨h₁, h₂, h₃, h₄, h₅⟩,
      fun ⟨h₁, h₂, h₃, h₄, h₅⟩ => ⟨h₁, h₂, h₃, h₄, h₅⟩⟩

/-- Names of classes and functions are words, and types stay on their lines. Documentation is
free. -/
structure Declarations.IsReadable (tree : Declarations) : Prop where
  names : ∀ c ∈ tree.scopedClasses, ConsistsOf IsSolid c.name
  functions : ∀ c ∈ tree.scopedClasses, ∀ function ∈ c.decl.members, function.IsReadable

instance (tree : Declarations) : Decidable tree.IsReadable :=
  decidable_of_iff
    ((∀ c ∈ tree.scopedClasses, ConsistsOf IsSolid c.name) ∧
      ∀ c ∈ tree.scopedClasses, ∀ function ∈ c.decl.members, function.IsReadable)
    ⟨fun ⟨hnames, hfunctions⟩ => ⟨hnames, hfunctions⟩,
      fun ⟨hnames, hfunctions⟩ => ⟨hnames, hfunctions⟩⟩

theorem Declarations.IsReadable.of_mem {tree : Declarations} (h : tree.IsReadable)
    {c : ScopedClass} (hc : c ∈ tree.scopedClasses) : c.IsReadable := by
  intro name hname
  obtain ⟨d, hd, rfl⟩ := Declarations.exists_of_mem_path hc hname
  exact h.names d hd

namespace RunAccount

variable {settings : GeneratorSettings} {tree : Declarations} {result : Generated}
  (account : RunAccount settings tree result)

include account

theorem isReadable_exported (ht : tree.IsReadable) {a : ClassAccount} (ha : a ∈ account.selected)
    {x : Candidate} (hx : x ∈ a.exported) : x.owner.IsReadable ∧ x.function.IsReadable := by
  obtain ⟨howner, hmember⟩ := account.mem_members_of_mem_exported ha hx
  have hclass := account.owner_mem_scopedClasses ha
  rw [howner]
  exact ⟨ht.of_mem hclass, ht.functions a.owner hclass x.function hmember⟩

theorem isReadable_glue (ht : tree.IsReadable) : ∀ c ∈ result.glue.classes, c.IsReadable := by
  rw [account.glue, List.forall_mem_map]
  intro a ha
  have howner := ht.of_mem (account.owner_mem_scopedClasses ha)
  refine ⟨isInLine_of_isSolid (ScopedClass.isSolid_qualifiedName howner), ?_,
    ScopedClass.isReadable_glueDispose howner⟩
  rw [ClassAccount.glue, List.forall_mem_map]
  intro x hx
  obtain ⟨hclass, hfunction⟩ := account.isReadable_exported ht ha hx
  exact WrapperIndex.isReadable_glueFunction _ hclass hfunction

theorem isReadable_rules (hs : settings.IsReadable) (ht : tree.IsReadable) :
    account.rules.binding.IsReadable where
  aliases := hs.aliases
  renames := hs.renames
  wrappers := by
    intro type wrapper hw
    obtain ⟨c, hc, -⟩ := WrapperIndex.exists_of_wrapperFor?_ofList hw
    obtain ⟨d, hd, heq⟩ := List.mem_map.mp hc
    cases heq
    obtain ⟨a, ha, rfl⟩ := List.mem_map.mp hd
    have hname := ht.names a.owner (account.owner_mem_scopedClasses ha)
    exact AliasTable.consistsOf_hostName
      (fun primitive => isInLine_of_isPlain primitive.isPlain_keyword)
      (fun entry he => isInLine_of_isPlain (hs.aliases entry he)) (by decide)
      (isInLine_of_isSolid hname)

theorem isReadable_bindings (hs : settings.IsReadable) (ht : tree.IsReadable) :
    ∀ c ∈ result.bindings.classes, c.IsReadable := by
  have hrules := account.isReadable_rules hs ht
  rw [account.bindings, List.forall_mem_map]
  intro a ha
  have howner := ht.of_mem (account.owner_mem_scopedClasses ha)
  constructor
  case wrapperName =>
    exact BindingRules.isInLine_wrapperName hrules howner
  case imports =>
    rw [ClassAccount.binding, List.forall_mem_map]
    intro x hx
    obtain ⟨hclass, hfunction⟩ := account.isReadable_exported ht ha hx
    exact BindingRules.isReadable_importFunction hrules hfunction
      (ScopedClass.isSolid_exportName hclass hfunction)
  case signatures =>
    rw [ClassAccount.binding, List.forall_mem_map]
    intro x hx
    obtain ⟨hclass, hfunction⟩ := account.isReadable_exported ht ha hx
    exact WrapperMember.isInLine_signature (BindingRules.isReadable_wrapFunction hrules hclass
      hfunction (ScopedClass.isSolid_exportName hclass hfunction))
  case dispose => exact ScopedClass.isReadable_importDispose howner

theorem flatMap_exportNames_glue :
    result.glue.classes.flatMap (·.exportNames) = result.report.exportNames := by
  rw [GenerationReport.exportNames, account.glue, account.entries, List.flatMap_map,
    List.flatMap_map]
  apply List.flatMap_congr
  intro a _
  rw [GlueClass.exportNames, GenerationRules.exportNames_glue]
  rfl

theorem flatMap_imports_bindings :
    result.bindings.classes.flatMap (fun c =>
      c.members.map (·.importDecl.exportName) ++ [c.dispose.exportName]) =
      result.report.exportNames := by
  rw [GenerationReport.exportNames, account.bindings, account.entries, List.flatMap_map,
    List.flatMap_map]
  apply List.flatMap_congr
  intro a _
  rw [ClassAccount.imports_binding]
  rfl

end RunAccount

/-- The exports read from the glue and the imports read from the bindings of a run are those in its
report. -/
theorem exports_read_back {settings : GeneratorSettings} {tree : Declarations} {result : Generated}
    (hs : settings.IsReadable) (ht : tree.IsReadable) (h : settings.generate tree = .ok result) :
    exportsIn result.glue.text = result.report.exportNames ∧
      importsIn result.bindings.text = result.report.exportNames := by
  obtain ⟨-, rfl⟩ := GeneratorSettings.generate_eq_ok_iff.mp h
  let account := settings.runAccount tree
  have hheader : ConsistsOf IsInLine (settings.assemble tree).glue.headerInclude :=
    hs.headerInclude
  have hnamespace : ConsistsOf IsInLine (settings.assemble tree).bindings.namespaceName :=
    hs.namespaceName
  have hlibrary : ConsistsOf IsInLine (settings.assemble tree).bindings.nativeLibrary :=
    hs.libraryReference
  have hglue := GlueDocument.exportsIn_text hheader (account.isReadable_glue ht)
  have hbindings := BindingDocument.importsIn_text hnamespace hlibrary
    (account.isReadable_bindings hs ht)
  exact ⟨hglue.trans account.flatMap_exportNames_glue,
    hbindings.trans account.flatMap_imports_bindings⟩

def Declarations.documented : Declarations :=
  let words := "text\nEXPORTS(void) A_f()\r\n    private static extern void A_f();"
  let method := { MemberFunction.method "read" .void with
    params := [⟨"count", .mk "unsigned int"⟩], doc := some words }
  let hidden := { NativeClass.ofName "Part" with doc := some words }
  ⟨none, [((NativeClass.ofName "A").addFunction method).addClass hidden]⟩

theorem exports_read_back_documented :
    ∃ result, GeneratorSettings.default.generate .documented = .ok result ∧
      exportsIn result.glue.text = ["A_read", "A_Dispose", "Part_Dispose"] ∧
      importsIn result.bindings.text = ["A_read", "A_Dispose", "Part_Dispose"] := by
  have h : GeneratorSettings.default.generate .documented =
      .ok (GeneratorSettings.default.assemble .documented) :=
    GeneratorSettings.generate_eq_ok_iff.mpr ⟨rfl, rfl⟩
  have hs : GeneratorSettings.default.IsReadable := by decide +kernel
  have ht : Declarations.documented.IsReadable := by decide +kernel
  have hnames : (GeneratorSettings.default.assemble .documented).report.exportNames =
      ["A_read", "A_Dispose", "Part_Dispose"] := by decide +kernel
  obtain ⟨hglue, hbindings⟩ := exports_read_back hs ht h
  exact ⟨_, h, hglue.trans hnames, hbindings.trans hnames⟩

end NativeBindings
