import NativeBindings.Proofs.Boundary.ParameterNames
import NativeBindings.Proofs.Generation.MemberNames
import NativeBindings.Proofs.Generation.WrapperNames
import NativeBindings.Proofs.Naming.Usable

/-!
# Names that bindings introduce

Parameters, members and wrapper classes are named in three ways, and only for parameters does anyone
look whether C# takes the name. Classes can come out with a keyword as their name, and members with
none or one that begins with a digit.
-/

namespace NativeBindings

open Text NativeType

/-- The names of classes, functions and parameters have a property. Parameters need not have names.
-/
structure Declarations.HasNames (tree : Declarations) (p : String → Prop) : Prop where
  classes : ∀ c ∈ tree.scopedClasses, p c.name
  functions : ∀ c ∈ tree.scopedClasses, ∀ function ∈ c.decl.members, p function.name
  params : ∀ c ∈ tree.scopedClasses, ∀ function ∈ c.decl.members, ∀ param ∈ function.params,
    param.name ≠ "" → p param.name

instance (tree : Declarations) (p : String → Prop) [DecidablePred p] :
    Decidable (tree.HasNames p) :=
  decidable_of_iff
    ((∀ c ∈ tree.scopedClasses, p c.name) ∧
      (∀ c ∈ tree.scopedClasses, ∀ function ∈ c.decl.members, p function.name) ∧
      ∀ c ∈ tree.scopedClasses, ∀ function ∈ c.decl.members, ∀ param ∈ function.params,
        param.name ≠ "" → p param.name)
    ⟨fun ⟨h₁, h₂, h₃⟩ => ⟨h₁, h₂, h₃⟩, fun ⟨h₁, h₂, h₃⟩ => ⟨h₁, h₂, h₃⟩⟩

/-- The name is a keyword of C#, or that of a native integer for which C# has one. -/
def TakesKeyword (name : String) : Prop :=
  name ∈ hostKeywords ∨ ∃ primitive ∈ HostPrimitive.ofNative? name, primitive ≠ .nativeInt

instance (name : String) : Decidable (TakesKeyword name) := inferInstanceAs (Decidable (_ ∨ _))

theorem IsIdentifier.isMark_eq_false {name : String} (h : IsIdentifier name) :
    ∀ c ∈ name.toList, isMark c = false := by
  intro c hc
  exact IsNameCharacter.of_forall_lt (p := fun c => isMark c = false) (by decide +kernel)
    (h.characters c hc)

theorem isUsable_resolve_iff {name : String} (h : IsIdentifier name) :
    IsUsable (AliasTable.default.resolve name) ↔ ¬ TakesKeyword name := by
  have haliases : ∀ entry ∈ AliasTable.default.entries,
      IsUsable entry.2 ∧ entry.1 ∉ hostKeywords := by
    decide +kernel
  have hkeywords : ∀ primitive : HostPrimitive,
      IsUsable primitive.keyword ↔ primitive = .nativeInt := by
    intro primitive
    cases primitive <;> decide +kernel
  have hpointerSized : ∀ keyword ∈ hostKeywords,
      HostPrimitive.ofNative? keyword ≠ some .nativeInt := by
    decide +kernel
  -- A primitive goes before an alias, and an alias before the name itself.
  rw [TakesKeyword, AliasTable.resolve]
  cases hprimitive : HostPrimitive.ofNative? name with
  | some primitive =>
    have hreserved : name ∈ hostKeywords → primitive ≠ .nativeInt := by
      rintro hkeyword rfl
      exact hpointerSized name hkeyword hprimitive
    simp only [hkeywords, Option.mem_some_iff, exists_eq_left', not_or, not_not]
    exact ⟨fun hint => ⟨fun hkeyword => hreserved hkeyword hint, hint⟩, And.right⟩
  | none =>
    cases halias : AliasTable.default.find? name with
    | some host =>
      obtain ⟨husable, hname⟩ := haliases _ (AliasTable.mem_entries_of_find? halias)
      simpa [husable] using hname
    | none => simpa using h.isUsable_iff

theorem isUsable_wrapperName_iff {rules : BindingRules} (hrules : rules.aliases = .default)
    {c : ScopedClass} (h : IsIdentifier c.name) :
    IsUsable (rules.wrapperName c) ↔ ¬ TakesKeyword c.name := by
  rw [BindingRules.wrapperName, hrules, AliasTable.hostName_noMark _ h.isMark_eq_false,
    isUsable_resolve_iff h]

/-- C# takes the name of the member for a function of a class. -/
def MemberFunction.GivesUsableName (c : ScopedClass) (function : MemberFunction) : Prop :=
  if function.isConstructor then ¬ TakesKeyword c.name else LeadsWithLetter function.name

instance (c : ScopedClass) (function : MemberFunction) : Decidable (function.GivesUsableName c) :=
  inferInstanceAs (Decidable (if function.isConstructor then ¬ TakesKeyword c.name
    else LeadsWithLetter function.name))

def BindingClass.parameterNames (c : BindingClass) : List String :=
  c.members.flatMap (fun m =>
      m.importDecl.params.map (·.name) ++ m.wrapper.params.map (·.name)) ++
    c.dispose.params.map (·.name)

namespace BindingRules

variable {rules : BindingRules} {c : ScopedClass} {function : MemberFunction}

theorem isUsable_name_wrapFunction_iff (haliases : rules.aliases = .default)
    (hnaming : rules.naming = GeneratorSettings.default.naming) (hc : IsIdentifier c.name)
    (hf : IsIdentifier function.name) (exportName : String) :
    IsUsable (rules.wrapFunction c function exportName).name ↔ function.GivesUsableName c := by
  rw [MemberFunction.GivesUsableName]
  cases hconstructor : function.isConstructor with
  | true =>
    rw [name_wrapFunction_constructor rules c function exportName hconstructor]
    simpa using isUsable_wrapperName_iff haliases hc
  | false =>
    rw [name_wrapFunction rules c function exportName hconstructor, hnaming]
    simpa using GeneratorSettings.isUsable_memberName_iff hf.characters function.isStatic

theorem isUsable_params_bindFunction
    (h : ∀ param ∈ function.params, param.name ≠ "" → IsIdentifier param.name)
    (exportName : String) :
    let m := rules.bindFunction c function exportName
    ∀ name ∈ m.importDecl.params.map (·.name) ++ m.wrapper.params.map (·.name), IsUsable name := by
  have hparams := function.isUsable_parameterNames h
  have hhandle : IsUsable handleParameter := by decide
  intro m
  change ∀ name ∈ (rules.importFunction function exportName).params.map (·.name) ++
    (rules.wrapFunction c function exportName).params.map (·.name), IsUsable name
  rw [names_importFunction_eq, names_wrapFunction, List.forall_mem_append, List.forall_mem_append]
  refine ⟨⟨?_, hparams⟩, hparams⟩
  cases function.isInstance <;> simp [hhandle]

end BindingRules

namespace GeneratorSettings

variable {tree : Declarations} (h : tree.HasNames IsIdentifier) {a : ClassAccount}
  (ha : a ∈ default.classAccounts tree)

include h ha

theorem isUsable_parameterNames_binding :
    ∀ name ∈ (a.binding (default.runRules tree)).parameterNames, IsUsable name := by
  have hhandle : IsUsable handleParameter := by decide
  have hclass := (default.runAccount tree).owner_mem_scopedClasses ha
  rw [BindingClass.parameterNames, List.forall_mem_append]
  constructor
  · simp only [ClassAccount.binding, List.flatMap_map, List.forall_mem_flatMap]
    intro x hx
    have hmember := ((default.runAccount tree).mem_members_of_mem_exported ha hx).2
    exact BindingRules.isUsable_params_bindFunction (h.params a.owner hclass x.function hmember) _
  · simpa [ClassAccount.binding, ScopedClass.importDispose, importHandle] using hhandle

theorem forall₂_members_binding :
    List.Forall₂ (fun x m => IsUsable m.wrapper.name ↔ x.function.GivesUsableName a.owner)
      a.exported (a.binding (default.runRules tree)).members := by
  have hclass := (default.runAccount tree).owner_mem_scopedClasses ha
  rw [ClassAccount.binding, List.forall₂_map_right_iff, List.forall₂_same]
  intro x hx
  obtain ⟨howner, hmember⟩ := (default.runAccount tree).mem_members_of_mem_exported ha hx
  rw [howner]
  exact BindingRules.isUsable_name_wrapFunction_iff rfl rfl (h.classes a.owner hclass)
    (h.functions a.owner hclass x.function hmember) _

end GeneratorSettings

/-- By default, if the declared names are identifiers, C# takes the names of all parameters. It
takes that of a wrapper class unless it is a keyword, and that of a member if a letter comes first
in the name of the function. -/
theorem introduced_names_usable_iff {tree : Declarations} {result : Generated}
    (hnames : tree.HasNames IsIdentifier)
    (h : GeneratorSettings.default.generate tree = .ok result) :
    let rules := GeneratorSettings.default.runRules tree
    result.bindings.classes = (GeneratorSettings.default.classAccounts tree).map (·.binding rules) ∧
      ∀ a ∈ GeneratorSettings.default.classAccounts tree,
        (∀ name ∈ (a.binding rules).parameterNames, IsUsable name) ∧
          (IsUsable (a.binding rules).wrapperName ↔ ¬ TakesKeyword a.owner.name) ∧
          List.Forall₂ (fun x m => IsUsable m.wrapper.name ↔ x.function.GivesUsableName a.owner)
            a.exported (a.binding rules).members := by
  intro rules
  obtain ⟨-, rfl⟩ := GeneratorSettings.generate_eq_ok_iff.mp h
  refine ⟨GeneratorSettings.default.bindings_assemble tree, ?_⟩
  intro a ha
  have hclass := (GeneratorSettings.default.runAccount tree).owner_mem_scopedClasses ha
  exact ⟨GeneratorSettings.isUsable_parameterNames_binding hnames ha,
    isUsable_wrapperName_iff rfl (hnames.classes a.owner hclass),
    GeneratorSettings.forall₂_members_binding hnames ha⟩

def Declarations.reading : Declarations :=
  let seek := (MemberFunction.method "_seek_from" .void).addParameter ⟨"in", ⟨"int32_t"⟩⟩
  ⟨none, [(NativeClass.ofName "reader_2").addConstructor
      ((MemberFunction.constructor "reader_2").addParameter ⟨"", ⟨"uint8_t"⟩⟩)
    |>.addFunction seek
    |>.addFunction (.method "get_type" ⟨"uint8_t"⟩)]⟩

theorem introduced_names_usable_iff_reading :
    Declarations.reading.HasNames IsIdentifier ∧
      ∃ result, GeneratorSettings.default.generate .reading = .ok result ∧
        result.bindings.classes.flatMap (fun c => c.wrapperName :: c.parameterNames) =
          ["reader_2", "arg0", "arg0", "target", "@in", "@in", "target", "target"] ∧
        ∀ a ∈ GeneratorSettings.default.classAccounts .reading,
          let c := a.binding (GeneratorSettings.default.runRules .reading)
          (∀ name ∈ c.parameterNames, IsUsable name) ∧ IsUsable c.wrapperName ∧
            (∀ x ∈ a.exported, x.function.GivesUsableName a.owner) ∧
            List.Forall₂ (fun x m => IsUsable m.wrapper.name ↔ x.function.GivesUsableName a.owner)
              a.exported c.members := by
  have hnames : Declarations.reading.HasNames IsIdentifier := by decide +kernel
  have h : GeneratorSettings.default.generate .reading =
      .ok (GeneratorSettings.default.assemble .reading) :=
    GeneratorSettings.generate_eq_ok_iff.mpr ⟨rfl, rfl⟩
  have howner : ∀ a ∈ GeneratorSettings.default.classAccounts .reading,
      ¬ TakesKeyword a.owner.name ∧ ∀ x ∈ a.exported, x.function.GivesUsableName a.owner := by
    decide +kernel
  obtain ⟨-, hclasses⟩ := introduced_names_usable_iff hnames h
  refine ⟨hnames, _, h, by decide +kernel, ?_⟩
  intro a ha
  obtain ⟨hparams, hwrapper, hmembers⟩ := hclasses a ha
  exact ⟨hparams, hwrapper.mpr (howner a ha).1, (howner a ha).2, hmembers⟩

def nativeKeywords : List String :=
  ["alignas", "alignof", "and", "and_eq", "asm", "auto", "bitand", "bitor", "bool", "break", "case",
    "catch", "char", "char8_t", "char16_t", "char32_t", "class", "compl", "concept", "const",
    "consteval", "constexpr", "constinit", "const_cast", "continue", "co_await", "co_return",
    "co_yield", "decltype", "default", "delete", "do", "double", "dynamic_cast", "else", "enum",
    "explicit", "export", "extern", "false", "float", "for", "friend", "goto", "if", "inline",
    "int", "long", "mutable", "namespace", "new", "noexcept", "not", "not_eq", "nullptr",
    "operator", "or", "or_eq", "private", "protected", "public", "register", "reinterpret_cast",
    "requires", "return", "short", "signed", "sizeof", "static", "static_assert", "static_cast",
    "struct", "switch", "template", "this", "thread_local", "throw", "true", "try", "typedef",
    "typeid", "typename", "union", "unsigned", "using", "virtual", "void", "volatile", "wchar_t",
    "while", "xor", "xor_eq"]

/-- A class named like a keyword of C#, with functions whose names begin with underscores, and one
named like an integer. -/
def Declarations.drawing : Declarations :=
  ⟨none, [(NativeClass.ofName "object").addFunction (.method "_2d" .void)
      |>.addFunction (.method "__" .void),
    NativeClass.ofName "uint8_t"]⟩

/-- Names that C++ takes can come out as names that C# does not take. -/
theorem introduced_names_unusable :
    Declarations.drawing.HasNames (fun name => IsIdentifier name ∧ name ∉ nativeKeywords) ∧
      ∃ result, GeneratorSettings.default.generate .drawing = .ok result ∧
        result.bindings.classes.map (·.wrapperName) = ["object", "byte"] ∧
        result.bindings.classes.flatMap (·.members.map (·.wrapper.name)) = ["2d", ""] ∧
        ∀ name ∈ ["object", "byte", "2d", ""], ¬ IsUsable name :=
  ⟨by decide +kernel, GeneratorSettings.default.assemble .drawing,
    GeneratorSettings.generate_eq_ok_iff.mpr ⟨rfl, rfl⟩, by decide +kernel, by decide +kernel,
    by decide +kernel⟩

end NativeBindings
