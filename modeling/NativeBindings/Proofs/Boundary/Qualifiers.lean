import NativeBindings.Proofs.Boundary.Indirection
import NativeBindings.Proofs.Host.Qualifiers
import NativeBindings.Proofs.Scope.Path

/-!
# Qualifiers across the boundary

No reference mark of a decorated name shows in C#, and no qualifier if all of them stand in front of
the name with a space behind, or if the name is that of a wrapped class. Import and wrapper repeat
any other qualifier.
-/

namespace NativeBindings

open Text NativeType

/-- A name with or without scopes. The qualifier is no name, and no member of a scope. -/
structure IsPlainName (name : List Char) : Prop extends IsBareName name where
  not_member : ¬ "::const".toList <:+ name

/-- What a C# type shows of the decoration of a name, at a place where the native type is spelled
over it. -/
structure DropsDecoration (rules : BindingRules) (type : NativeType) (name : List Char)
    (levels : List Bool) (host : String) : Prop where
  ampersand : '&' ∉ host.toList
  const : (MappedSpelling name levels.length type.spelling.toList ∨
    rules.index.isWrapped type = true ∧ type.baseName = String.ofList name) →
      ¬ HasConst host.toList
  /-- Any other qualifier is kept, unless an alias is for a spelling with it. -/
  keeps : rules.aliases.HasPlainKeys → rules.index.isWrapped type = false →
    ¬ MappedSpelling name levels.length type.spelling.toList → HasConst host.toList

/-- The C# types that stand for a host type at the boundary. -/
inductive CrossesAs : String → String → Prop where
  | bool {form : String} (h : form ∈ ["bool", "ref bool", "byte"]) : CrossesAs "bool" form
  | nativeInt {form : String} (h : form ∈ ["IntPtr", "ref IntPtr", "long"]) : CrossesAs "nint" form
  | value (host : String) : CrossesAs host host
  | reference (host : String) : CrossesAs host ("ref " ++ host)

namespace CrossesAs

variable {host form : String}

theorem hasConst_iff (h : CrossesAs host form) : HasConst form.toList ↔ HasConst host.toList := by
  cases h with
  | bool h =>
    have hall : ∀ form ∈ ["bool", "ref bool", "byte"],
        (HasConst form.toList ↔ HasConst "bool".toList) := by decide
    exact hall form h
  | nativeInt h =>
    have hall : ∀ form ∈ ["IntPtr", "ref IntPtr", "long"],
        (HasConst form.toList ↔ HasConst "nint".toList) := by decide
    exact hall form h
  | value => exact Iff.rfl
  | reference =>
    have htext : ("ref " ++ host).toList = "ref".toList ++ ' ' :: host.toList :=
      String.toList_append
    have href : ¬ HasConst "ref".toList := by decide
    rw [HasConst, htext, words_append_cons (by decide), List.mem_append]
    exact or_iff_right href

theorem ampersand_mem_iff (h : CrossesAs host form) : '&' ∈ form.toList ↔ '&' ∈ host.toList := by
  cases h with
  | bool h =>
    have hall : ∀ form ∈ ["bool", "ref bool", "byte"],
        ('&' ∈ form.toList ↔ '&' ∈ "bool".toList) := by decide
    exact hall form h
  | nativeInt h =>
    have hall : ∀ form ∈ ["IntPtr", "ref IntPtr", "long"],
        ('&' ∈ form.toList ↔ '&' ∈ "nint".toList) := by decide
    exact hall form h
  | value => exact Iff.rfl
  | reference =>
    rw [String.toList_append, List.mem_append]
    exact or_iff_right (by decide)

end CrossesAs

namespace BindingRules

variable {rules : BindingRules} {type : NativeType}

theorem Plans.crossesAs {declared : String} {plan : ParameterPlan}
    (h : rules.Plans type declared plan) (hw : rules.index.isWrapped type = false) :
    CrossesAs (rules.aliases.hostType type) plan.imported.type ∧
      CrossesAs (rules.aliases.hostType type) plan.wrapper.type := by
  cases h with
  | handle hh =>
    rw [WrapperIndex.isWrapped, hh] at hw
    cases hw
  | boolReference _ _ hh =>
    rw [hh]
    exact ⟨.bool (by simp), .bool (by simp)⟩
  | nativeIntReference _ _ hh =>
    rw [hh]
    exact ⟨.nativeInt (by simp), .nativeInt (by simp)⟩
  | reference _ _ hh =>
    rw [hh]
    exact ⟨.reference _, .reference _⟩
  | bool _ _ hh =>
    rw [hh]
    exact ⟨.bool (by simp), .bool (by simp)⟩
  | nativeInt _ _ hh =>
    rw [hh]
    exact ⟨.nativeInt (by simp), .nativeInt (by simp)⟩
  | value _ _ hh =>
    rw [hh]
    exact ⟨.value _, .value _⟩

theorem PlansResult.crossesAs {plan : ResultPlan} (h : rules.PlansResult type plan)
    (hw : rules.index.isWrapped type = false) :
    CrossesAs (rules.aliases.hostType type) plan.imported ∧
      CrossesAs (rules.aliases.hostType type) plan.wrapper := by
  cases h with
  | handle hh =>
    rw [hh] at hw
    cases hw
  | bool _ hh =>
    rw [hh]
    exact ⟨.bool (by simp), .bool (by simp)⟩
  | nativeInt _ hh =>
    rw [hh]
    exact ⟨.nativeInt (by simp), .nativeInt (by simp)⟩
  | value _ hh =>
    rw [hh]
    exact ⟨.value _, .value _⟩

end BindingRules

section

variable {rules : BindingRules} {type : NativeType} {name : List Char} {levels : List Bool}
  {mark : ReferenceMark} {host : String}

theorem DropsDecoration.of_crossesAs (ha : rules.aliases.HasPlainTargets) (hn : IsBareName name)
    (hs : type.SpelledOver name levels mark) (hm : mark ≠ .rvalue)
    (hl : mark = .lvalue → levels = []) (hw : rules.index.isWrapped type = false)
    (hc : CrossesAs (rules.aliases.hostType type) host) :
    DropsDecoration rules type name levels host := by
  have hhost : (rules.aliases.hostType type).toList =
      rules.aliases.hostSpelling type.spelling.toList := String.toList_ofList
  constructor
  · rw [hc.ampersand_mem_iff]
    exact hs.ampersand_notMem_hostType ha hn hm hl
  · rintro (hmapped | ⟨hwrapped, -⟩)
    · rw [hc.hasConst_iff, hhost]
      exact AliasTable.not_hasConst_of_mapped ha hn hmapped
    · rw [hw] at hwrapped
      cases hwrapped
  · intro hk _ hmapped
    rw [hc.hasConst_iff]
    exact (hs.mapped_or_hasConst hk hn hm hl).resolve_left hmapped

theorem DropsDecoration.of_wrapped (hn : IsBareName name) (hs : type.SpelledOver name levels mark)
    (hw : rules.index.isWrapped type = true) (hamp : '&' ∉ host.toList)
    (hconst : type.baseName = String.ofList name → ¬ HasConst host.toList) :
    DropsDecoration rules type name levels host := by
  refine ⟨hamp, ?_, ?_⟩
  · rintro (hmapped | ⟨-, hbase⟩)
    · exact hconst (hs.baseName_of_mapped hn hmapped)
    · exact hconst hbase
  · intro _ hunwrapped
    rw [hw] at hunwrapped
    cases hunwrapped

end

theorem ScopedClass.qualifiedName_cases (c : ScopedClass) :
    c.qualifiedName = c.name ∨ ∃ scope, c.qualifiedName = scope ++ "::" ++ c.name := by
  by_cases h : c.enclosing = []
  · left
    rw [qualifiedName, path, h]
    rfl
  · exact .inr ⟨scopePath c.enclosing, scopePath_concat h c.name⟩

theorem ScopedClass.name_isSuffix (c : ScopedClass) :
    c.name.toList <:+ c.qualifiedName.toList := by
  rcases c.qualifiedName_cases with h | ⟨scope, h⟩
  · rw [h]
  · rw [h, String.toList_append]
    exact List.suffix_append _ _

theorem NativeType.SpelledOver.ampersand_notMem_baseName {type : NativeType} {name : List Char}
    {levels : List Bool} {mark : ReferenceMark} (hn : IsBareName name)
    (h : type.SpelledOver name levels mark) : '&' ∉ type.baseName.toList := by
  rcases h.baseName_cases hn with hbase | ⟨c, gap, hg, -, -, hbase⟩
  · rw [hbase, String.toList_ofList]
    exact hn.ampersand_notMem
  · rw [hbase, String.toList_ofList, List.mem_append, List.mem_append, not_or, not_or]
    exact ⟨by decide, hg.ampersand_notMem, hn.ampersand_notMem⟩

def BindingRules.FindsByName (rules : BindingRules) : Prop :=
  ∀ type wrapper, rules.index.wrapperFor? type = some wrapper →
    ∃ c : ScopedClass, wrapper = rules.wrapperName c ∧
      (type.baseName = c.name ∨ type.baseName = c.qualifiedName)

namespace BindingRules

variable {rules : BindingRules} (ha : rules.aliases.HasPlainTargets) {c : ScopedClass}
  {base : String} (hb : base = c.name ∨ base = c.qualifiedName)

include ha hb

theorem ampersand_notMem_wrapperName (h : '&' ∉ base.toList) :
    '&' ∉ (rules.wrapperName c).toList := by
  have hname : '&' ∉ c.name.toList := by
    intro hd
    apply h
    rcases hb with rfl | rfl
    · exact hd
    · exact c.name_isSuffix.subset hd
  rw [wrapperName, AliasTable.hostName, String.toList_ofList]
  exact AliasTable.ampersand_notMem_hostSpelling ha hname

theorem not_hasConst_wrapperName (hn : IsPlainName base.toList) :
    ¬ HasConst (rules.wrapperName c).toList := by
  have hsuffix : c.name.toList <:+ base.toList := by
    rcases hb with rfl | rfl
    · exact List.suffix_refl _
    · exact c.name_isSuffix
  have hmarks : ∀ d ∈ c.name.toList, isMark d = false := fun d hd => hn.noMark d (hsuffix.subset hd)
  have hconst : c.name.toList ≠ "const".toList := by
    intro heq
    rcases hb with rfl | rfl
    · exact hn.ne_const heq
    · rcases c.qualifiedName_cases with h | ⟨scope, h⟩
      · exact hn.ne_const (by rw [h, heq])
      · apply hn.not_member
        rw [h, String.toList_append, String.toList_append, heq, List.append_assoc]
        exact List.suffix_append _ _
  rw [wrapperName, AliasTable.hostName, String.toList_ofList, AliasTable.hostSpelling_noMark hmarks]
  exact AliasTable.not_hasConst_resolve ha (not_hasConst_of_noMark hmarks hconst)

end BindingRules

section

variable {rules : BindingRules} {admission : Admission} {name : List Char} {levels : List Bool}
  {mark : ReferenceMark} {type : NativeType}

theorem dropsDecoration_handle (hn : IsBareName name) (hs : type.SpelledOver name levels mark)
    (hw : rules.index.isWrapped type = true) :
    DropsDecoration rules type name levels "void*" :=
  .of_wrapped hn hs hw (by decide) fun _ => by decide

/-- Both types of an admitted parameter drop the decoration as far as the mapping does. -/
theorem dropsDecoration_parameter (ha : rules.aliases.HasPlainTargets) (hf : rules.FindsByName)
    {param : Parameter} (position : Nat) (hn : IsPlainName name)
    (hs : param.type.SpelledOver name levels mark)
    (h : admission.isUnsupportedParameter param.type = false) :
    DropsDecoration rules param.type name levels
        (rules.planParameter param position).imported.type ∧
      DropsDecoration rules param.type name levels
        (rules.planParameter param position).wrapper.type := by
  have hbare := hn.toIsBareName
  obtain ⟨hmark, hlvalue, -⟩ := Admission.countedLevels_of_parameter h hbare hs
  have hplans := rules.plans_planParameter param position
  cases hw : rules.index.isWrapped param.type with
  | false =>
    obtain ⟨himported, hwrapper⟩ := hplans.crossesAs hw
    exact ⟨.of_crossesAs ha hbare hs hmark hlvalue hw himported,
      .of_crossesAs ha hbare hs hmark hlvalue hw hwrapper⟩
  | true =>
    obtain ⟨wrapper, hfound⟩ := Option.isSome_iff_exists.mp hw
    obtain ⟨c, rfl, hc⟩ := hf param.type wrapper hfound
    have hbase := hs.ampersand_notMem_baseName hbare
    have hamp := BindingRules.ampersand_notMem_wrapperName ha hc hbase
    have hconst : param.type.baseName = String.ofList name →
        ¬ HasConst (rules.wrapperName c).toList := by
      intro hbase
      apply BindingRules.not_hasConst_wrapperName ha hc
      rwa [hbase, String.toList_ofList]
    simp only [BindingRules.planParameter, hfound]
    exact ⟨dropsDecoration_handle hbare hs hw, .of_wrapped hbare hs hw hamp hconst⟩

theorem dropsDecoration_result (ha : rules.aliases.HasPlainTargets) (hn : IsBareName name)
    (hs : type.SpelledOver name levels mark) (h : admission.isUnsupportedReturn type = false) :
    DropsDecoration rules type name levels (rules.planResult type).imported ∧
      DropsDecoration rules type name levels (rules.planResult type).wrapper := by
  obtain ⟨hmark, -⟩ := Admission.countedLevels_of_return h hn hs
  have hrvalue : mark ≠ .rvalue := by simp [hmark]
  have hlvalue : mark = .lvalue → levels = [] := by simp [hmark]
  have hplans := rules.plansResult_planResult type
  cases hw : rules.index.isWrapped type with
  | false =>
    obtain ⟨himported, hwrapper⟩ := hplans.crossesAs hw
    exact ⟨.of_crossesAs ha hn hs hrvalue hlvalue hw himported,
      .of_crossesAs ha hn hs hrvalue hlvalue hw hwrapper⟩
  | true =>
    rw [BindingRules.planResult, if_pos hw]
    exact ⟨dropsDecoration_handle hn hs hw, dropsDecoration_handle hn hs hw⟩

end

/-- What import and wrapper of a function show of decorated names in its signature. -/
structure DropsDecorations (rules : BindingRules) (function : MemberFunction)
    (imported : ImportDeclaration) (wrapper : WrapperMember) : Prop where
  params : ∀ (i : Nat) (param : Parameter), function.params[i]? = some param →
    ∃ p q, imported.params[function.handles + i]? = some p ∧ wrapper.params[i]? = some q ∧
      ∀ name levels mark, IsPlainName name → param.type.SpelledOver name levels mark →
        DropsDecoration rules param.type name levels p.type ∧
          DropsDecoration rules param.type name levels q.type
  result : function.isConstructor = false → ∃ host, wrapper.returnType = some host ∧
    ∀ name levels mark, IsPlainName name → function.returnType.SpelledOver name levels mark →
      DropsDecoration rules function.returnType name levels imported.returnType ∧
        DropsDecoration rules function.returnType name levels host

theorem dropsDecorations_of_admitted {rules : BindingRules} {admission : Admission}
    (ha : rules.aliases.HasPlainTargets) (hf : rules.FindsByName) {function : MemberFunction}
    (h : admission.fault? function = none) (c : ScopedClass) (exportName : String) :
    DropsDecorations rules function (rules.importFunction function exportName)
      (rules.wrapFunction c function exportName) := by
  obtain ⟨-, hparams, hreturn⟩ := Admission.fault?_eq_none_iff.mp h
  constructor
  · intro i param hparam
    refine ⟨(rules.planParameter param i).imported, (rules.planParameter param i).wrapper, ?_, ?_,
      ?_⟩
    · rw [BindingRules.importFunction, getElem?_handles_append, List.getElem?_map,
        BindingRules.getElem?_planParameters, hparam]
      rfl
    · rw [rules.params_wrapFunction, List.getElem?_map, BindingRules.getElem?_planParameters,
        hparam]
      rfl
    · intro name levels mark hn hs
      have hadmitted := hparams param (List.mem_of_getElem? hparam)
      exact dropsDecoration_parameter ha hf i hn hs
        (Admission.parameterFault?_eq_none_iff.mp hadmitted).2
  · intro hc
    have hadmitted := (Admission.returnFault?_eq_none_iff.mp (hreturn hc)).2
    have hconstructor : ¬ function.isConstructor = true := by simp [hc]
    refine ⟨(rules.planResult function.returnType).wrapper, ?_, ?_⟩
    · rw [BindingRules.wrapFunction]
      simp only [if_neg hconstructor]
    · intro name levels mark hn hs
      rw [BindingRules.importFunction]
      simp only [if_neg hconstructor]
      exact dropsDecoration_result ha hn.toIsBareName hs hadmitted

theorem GenerationRules.findsByName_ofSelected (settings : GeneratorSettings)
    (selected : List ScopedClass) : (ofSelected settings selected).binding.FindsByName := by
  intro type wrapper h
  obtain ⟨c, hc, hbase⟩ := WrapperIndex.exists_of_wrapperFor?_ofList h
  obtain ⟨d, -, heq⟩ := List.mem_map.mp hc
  cases heq
  exact ⟨c, rfl, hbase⟩

/-- For every function that a run exports, and every C++ spelling over a plain name of its parameter
types and its result: no reference mark reaches the import and the wrapper, and no qualifier if all
stand in front of the name with a space behind, or if a class of that name is wrapped. With no such
class, and no alias for a qualified spelling, each other qualifier reaches both. -/
theorem exported_decorations_dropped {settings : GeneratorSettings} {tree : Declarations}
    {result : Generated} (h : settings.generate tree = .ok result)
    (ha : settings.aliases.HasPlainTargets) :
    ∃ account : RunAccount settings tree result,
      ∀ a ∈ account.selected, ∀ x ∈ a.exported,
        DropsDecorations account.rules.binding x.function
          (account.rules.binding.importFunction x.function x.exportName)
          (account.rules.binding.wrapFunction x.owner x.function x.exportName) := by
  obtain ⟨-, rfl⟩ := GeneratorSettings.generate_eq_ok_iff.mp h
  refine ⟨settings.runAccount tree, ?_⟩
  intro a hsel x hx
  have hadmitted := GeneratorSettings.fault?_of_mem_exported hsel hx
  rw [GeneratorSettings.rules_runAccount]
  exact dropsDecorations_of_admitted ha (GenerationRules.findsByName_ofSelected settings _)
    hadmitted x.owner x.exportName

def Declarations.qualifying : Declarations :=
  let count := (MemberFunction.method "count" ⟨"const uint32_t"⟩).addParameter
    ⟨"from", ⟨"uint32_t" ++ " const"⟩⟩
  let copy := (MemberFunction.method "copy" .void).addParameter ⟨"from", ⟨"Thing const&"⟩⟩
  ⟨none, [(NativeClass.ofName "Thing").addFunction count |>.addFunction copy]⟩

theorem GeneratorSettings.generate_qualifying :
    GeneratorSettings.default.generate .qualifying =
      .ok (GeneratorSettings.default.assemble .qualifying) :=
  generate_eq_ok_iff.mpr ⟨rfl, rfl⟩

theorem AliasTable.hasPlainTargets_default : GeneratorSettings.default.aliases.HasPlainTargets := by
  unfold HasPlainTargets
  decide

theorem exported_decorations_dropped_qualifying :
    ∃ result, GeneratorSettings.default.generate .qualifying = .ok result ∧
      ∃ account : RunAccount .default .qualifying result,
        (∃ a ∈ account.selected, ∃ x ∈ a.exported, x.exportName = "Thing_copy") ∧
        ∀ a ∈ account.selected, ∀ x ∈ a.exported,
          DropsDecorations account.rules.binding x.function
            (account.rules.binding.importFunction x.function x.exportName)
            (account.rules.binding.wrapFunction x.owner x.function x.exportName) := by
  have hexported : ∃ c ∈ (GeneratorSettings.default.assemble .qualifying).glue.classes,
      ∃ f ∈ c.functions, f.exportName = "Thing_copy" := by
    decide +kernel
  obtain ⟨account, hdrops⟩ :=
    exported_decorations_dropped GeneratorSettings.generate_qualifying
      AliasTable.hasPlainTargets_default
  rw [account.glue] at hexported
  obtain ⟨_, hc, f, hf, hname⟩ := hexported
  obtain ⟨a, ha, rfl⟩ := List.mem_map.mp hc
  obtain ⟨x, hx, rfl⟩ := List.mem_map.mp hf
  exact ⟨_, GeneratorSettings.generate_qualifying, account, ⟨a, ha, x, hx, hname⟩, hdrops⟩

/-- The qualifier behind the name of a number is part of what import and wrapper take. -/
theorem trailing_qualifier_exported :
    ∃ result, GeneratorSettings.default.generate .qualifying = .ok result ∧
      GeneratorSettings.default.aliases.HasPlainTargets ∧ IsPlainName "uint32_t".toList ∧
      (⟨"uint32_t" ++ " const"⟩ : NativeType).SpelledOver "uint32_t".toList [] .none ∧
      (∃ c ∈ result.glue.classes, ∃ f ∈ c.functions, f.exportName = "Thing_count" ∧
        ∃ p ∈ f.params, p = ⟨"uint32_t" ++ " const", "from"⟩) ∧
      ∃ c ∈ result.bindings.classes, ∃ m ∈ c.members, m.importDecl.exportName = "Thing_count" ∧
        (∃ p ∈ m.importDecl.params, p.name = "from" ∧ HasConst p.type.toList) ∧
          ∃ q ∈ m.wrapper.params, q.name = "from" ∧ HasConst q.type.toList := by
  have hplain : IsPlainName "uint32_t".toList :=
    ⟨⟨by decide, noMark_of_all (by decide), by decide⟩, by decide⟩
  have hspelled : (⟨"uint32_t" ++ " const"⟩ : NativeType).SpelledOver "uint32_t".toList [] .none :=
    ⟨_, [], [], .nameConst (.plain .nil) .space (by simp), .nil, .nil, rfl⟩
  exact ⟨_, GeneratorSettings.generate_qualifying, AliasTable.hasPlainTargets_default, hplain,
    hspelled, by decide +kernel, by decide +kernel⟩

end NativeBindings
