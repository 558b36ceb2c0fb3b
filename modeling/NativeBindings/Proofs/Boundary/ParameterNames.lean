import NativeBindings.Proofs.Generation.Account
import NativeBindings.Proofs.Naming.Parameter

/-!
# Parameters of one name

Export, import and wrapper member take over the names of the parameters of a function, the import
and the wrapper member as identifiers of C#. So the names in each differ unless a parameter takes
one that is declared.
-/

namespace NativeBindings

section

variable (rules : BindingRules) (c : ScopedClass) (function : MemberFunction) (exportName : String)

theorem WrapperIndex.names_glueParameters (index : WrapperIndex) :
    (index.glueParameters function).map (·.1.name) = function.parameterNames := by
  apply List.ext_getElem?
  intro i
  rw [List.getElem?_map, getElem?_glueParameters, MemberFunction.getElem?_parameterNames]
  cases function.params[i]? with
  | none => rfl
  | some param => exact congrArg some (index.name_glueParameter param i)

theorem BindingRules.Plans.name_wrapper {rules : BindingRules} {type : NativeType} {name : String}
    {plan : ParameterPlan} (h : rules.Plans type name plan) : plan.wrapper.name = name := by
  cases h <;> rfl

theorem BindingRules.names_wrapFunction :
    (rules.wrapFunction c function exportName).params.map (·.name) =
      function.parameterNames.map hostIdentifier := by
  rw [params_wrapFunction, List.map_map]
  apply List.ext_getElem?
  intro i
  rw [List.getElem?_map, List.getElem?_map, getElem?_planParameters,
    MemberFunction.getElem?_parameterNames]
  cases function.params[i]? with
  | none => rfl
  | some param => exact congrArg some (rules.plans_planParameter param i).name_wrapper

theorem BindingRules.names_importFunction_eq :
    (rules.importFunction function exportName).params.map (·.name) =
      (if function.isInstance then [handleParameter] else []) ++
        function.parameterNames.map hostIdentifier := by
  rw [names_importFunction, names_planParameters,
    ← rules.index.names_glueParameters function, List.map_map]
  rfl

theorem MemberFunction.handleParameter_notMem : handleParameter ∉ function.parameterNames := by
  intro h
  obtain ⟨i, hi⟩ := List.getElem?_of_mem h
  rw [getElem?_parameterNames] at hi
  obtain ⟨param, -, hname⟩ := Option.map_eq_some_iff.mp hi
  exact parameterName_ne_handleParameter _ _ hname

theorem MemberFunction.handleParameter_notMem_host :
    handleParameter ∉ function.parameterNames.map hostIdentifier := by
  intro h
  obtain ⟨name, hname, heq⟩ := List.mem_map.mp h
  refine hostIdentifier_ne_handleParameter ?_ heq
  rintro rfl
  exact function.handleParameter_notMem hname

theorem nodup_handles_append_iff {names : List String} (h : handleParameter ∉ names) :
    ((if function.isInstance then [handleParameter] else []) ++ names).Nodup ↔ names.Nodup := by
  cases function.isInstance with
  | true => simp [h]
  | false => simp

end

/-- If the declared names of the parameters of a function differ, so do those of its export, handle
included, unless a parameter takes the declared name of another. Those of import and wrapper member
differ unless this happens or a declared keyword is written like another declared name. -/
theorem parameter_names_distinct_iff {function : MemberFunction} (h : function.HasDistinctNames)
    (rules : BindingRules) (c : ScopedClass) (exportName : String) :
    (((rules.index.glueFunction c function).params.map (·.name)).Nodup ↔
        ¬ function.TakesDeclaredName) ∧
      (((rules.importFunction function exportName).params.map (·.name)).Nodup ↔
        ¬ function.TakesDeclaredName ∧ ¬ function.EscapesToDeclaredName) ∧
      (((rules.wrapFunction c function exportName).params.map (·.name)).Nodup ↔
        ¬ function.TakesDeclaredName ∧ ¬ function.EscapesToDeclaredName) := by
  refine ⟨?_, ?_, ?_⟩
  · rw [WrapperIndex.names_glueFunction, rules.index.names_glueParameters,
      nodup_handles_append_iff function function.handleParameter_notMem,
      MemberFunction.parameterNames_nodup_iff h]
  · rw [rules.names_importFunction_eq,
      nodup_handles_append_iff function function.handleParameter_notMem_host,
      MemberFunction.hostNames_nodup_iff h]
  · rw [rules.names_wrapFunction, MemberFunction.hostNames_nodup_iff h]

def MemberFunction.taking (name : String) (params : List String) : MemberFunction :=
  { method name .void with params := params.map fun param => ⟨param, ⟨"int32_t"⟩⟩ }

theorem parameter_names_distinct_iff_keyword :
    let function := MemberFunction.taking "set" [" target", "", "string", "arg2", ""]
    let rules : BindingRules := ⟨.default, GeneratorSettings.default.naming, .empty⟩
    function.HasDistinctNames ∧ ¬ function.TakesDeclaredName ∧ ¬ function.EscapesToDeclaredName ∧
      (rules.importFunction function "Meter_set").params.map (·.name) =
        ["target", "target_", "arg1", "@string", "arg2", "arg4"] := by
  intro function rules
  have hnames : function.HasDistinctNames := by decide +kernel
  obtain ⟨-, himported, -⟩ :=
    parameter_names_distinct_iff hnames rules ⟨.ofName "Meter", []⟩ "Meter_set"
  obtain ⟨htakes, hescapes⟩ := himported.mp (by decide +kernel)
  exact ⟨hnames, htakes, hescapes, by decide +kernel⟩

/-- A class with methods whose parameters have different names that are declared. -/
def Declarations.numbering : Declarations :=
  ⟨none, [(NativeClass.ofName "Meter").addFunction (.taking "add" ["arg1", ""])
    |>.addFunction (.taking "aim" ["target", "target_"])]⟩

theorem GeneratorSettings.generate_numbering :
    GeneratorSettings.default.generate .numbering =
      .ok (GeneratorSettings.default.assemble .numbering) :=
  generate_eq_ok_iff.mpr ⟨rfl, rfl⟩

/-- In export, import and wrapper member of each, two parameters have one name. -/
theorem declared_names_taken :
    ∃ result, GeneratorSettings.default.generate .numbering = .ok result ∧
      (∀ c ∈ Declarations.numbering.classes, ∀ f ∈ c.functions, f.HasDistinctNames) ∧
      ∀ exportName ∈ ["Meter_add", "Meter_aim"],
        (∃ c ∈ result.glue.classes, ∃ f ∈ c.functions, f.exportName = exportName ∧
          ¬ (f.params.map (·.name)).Nodup) ∧
        ∃ c ∈ result.bindings.classes, ∃ m ∈ c.members, m.importDecl.exportName = exportName ∧
          ¬ (m.importDecl.params.map (·.name)).Nodup ∧ ¬ (m.wrapper.params.map (·.name)).Nodup :=
  ⟨_, GeneratorSettings.generate_numbering, by decide +kernel, by decide +kernel⟩

end NativeBindings
