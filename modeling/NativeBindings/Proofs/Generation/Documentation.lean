import NativeBindings.Proofs.Documents.Documentation
import NativeBindings.Proofs.Documents.Exports
import NativeBindings.Proofs.Generation.Members
import NativeBindings.Proofs.Native.Documentation

/-!
# Documentation and code

Trees that differ in documentation and locations only give the same glue and the same report, and
their bindings differ in lines of documentation only.
-/

namespace NativeBindings

namespace ScopedClass

@[simp] theorem name_undocumented (c : ScopedClass) : c.undocumented.name = c.name :=
  c.decl.name_undocumented

@[simp] theorem path_undocumented (c : ScopedClass) : c.undocumented.path = c.path := by
  rw [path, path, name_undocumented]
  rfl

@[simp] theorem qualifiedName_undocumented (c : ScopedClass) :
    c.undocumented.qualifiedName = c.qualifiedName := by
  rw [qualifiedName, qualifiedName, path_undocumented]

@[simp] theorem scopedNames_undocumented (c : ScopedClass) :
    c.undocumented.scopedNames = c.scopedNames := by
  rw [scopedNames, scopedNames, path_undocumented]

@[simp] theorem disposeName_undocumented (c : ScopedClass) :
    c.undocumented.disposeName = c.disposeName := by
  rw [disposeName, disposeName, name_undocumented]

@[simp] theorem exportName_undocumented (c : ScopedClass) (function : MemberFunction) :
    c.undocumented.exportName function.undocumented = c.exportName function := by
  rw [exportName, exportName, name_undocumented]
  rfl

@[simp] theorem pointerSpelling_undocumented (c : ScopedClass) :
    c.undocumented.pointerSpelling = c.pointerSpelling := by
  rw [pointerSpelling, pointerSpelling, qualifiedName_undocumented]

@[simp] theorem glueHandle_undocumented (c : ScopedClass) :
    c.undocumented.glueHandle = c.glueHandle := by
  rw [glueHandle, glueHandle, pointerSpelling_undocumented]

end ScopedClass

def ClassVerdict.undocumented (v : ClassVerdict) : ClassVerdict := (v.1.undocumented, v.2)

def FunctionOutcome.undocumented : FunctionOutcome → FunctionOutcome
  | bound glue member => bound glue member.undocumented
  | skipped name reason => skipped name reason

def ClassBindings.undocumented (b : ClassBindings) : ClassBindings :=
  { b with owner := b.owner.undocumented, outcomes := b.outcomes.map (·.undocumented) }

def Generated.undocumented (generated : Generated) : Generated :=
  { generated with bindings := generated.bindings.undocumented }

theorem Denylist.classVerdicts_undocumented (denylist : Denylist) (ignored reserved : List String)
    (classes : List ScopedClass) :
    denylist.classVerdicts ignored reserved (classes.map (·.undocumented)) =
      (denylist.classVerdicts ignored reserved classes).map (·.undocumented) := by
  induction classes generalizing ignored reserved with
  | nil => rfl
  | cons c rest ih =>
    have hinside : c.undocumented.isInside ignored = c.isInside ignored := rfl
    have hdenies : denylist.deniesClass c.undocumented = denylist.deniesClass c := by
      rw [deniesClass, deniesClass, ScopedClass.scopedNames_undocumented]
    rw [List.map_cons, classVerdicts, classVerdicts]
    simp only [hinside, hdenies, ScopedClass.qualifiedName_undocumented,
      ScopedClass.disposeName_undocumented, ih]
    split
    · rfl
    · split <;> rfl

namespace ClassBindings

variable (b : ClassBindings)

theorem glue_undocumented : b.undocumented.glue = b.glue := by
  have hglue : (fun outcome : FunctionOutcome => outcome.glue?) ∘ FunctionOutcome.undocumented =
      fun outcome => outcome.glue? := by
    funext outcome
    cases outcome <;> rfl
  have hdispose : b.owner.undocumented.glueDispose = b.owner.glueDispose := by
    rw [ScopedClass.glueDispose, ScopedClass.glueDispose, ScopedClass.disposeName_undocumented,
      ScopedClass.glueHandle_undocumented]
  simp only [glue, undocumented, List.filterMap_map, hglue, hdispose,
    ScopedClass.qualifiedName_undocumented]

theorem binding_undocumented : b.undocumented.binding = b.binding.undocumented := by
  have hmember : (fun outcome : FunctionOutcome => outcome.member?) ∘
      FunctionOutcome.undocumented = fun outcome => outcome.member?.map (·.undocumented) := by
    funext outcome
    cases outcome <;> rfl
  have hdispose : b.owner.undocumented.importDispose = b.owner.importDispose := by
    rw [ScopedClass.importDispose, ScopedClass.importDispose, ScopedClass.disposeName_undocumented]
  simp only [binding, undocumented, BindingClass.undocumented, List.filterMap_map, hmember,
    hdispose, List.map_filterMap]

theorem functionExports_undocumented : b.undocumented.functionExports = b.functionExports := by
  rw [functionExports, functionExports, glue_undocumented]

theorem report_undocumented : b.undocumented.report = b.report := by
  rw [report, report, glue_undocumented, undocumented, ScopedClass.qualifiedName_undocumented]

theorem skipped_undocumented : b.undocumented.skipped = b.skipped := by
  have hrecord : ∀ owner : String, (fun outcome : FunctionOutcome => outcome.record? owner) ∘
      FunctionOutcome.undocumented = fun outcome => outcome.record? owner := by
    intro owner
    funext outcome
    cases outcome <;> rfl
  simp only [skipped, undocumented, List.filterMap_append, List.filterMap_map, hrecord,
    ScopedClass.qualifiedName_undocumented]

end ClassBindings

namespace GenerationRules

variable (rules : GenerationRules)

theorem bind_undocumented (c : ScopedClass) (function : MemberFunction) :
    rules.bind c.undocumented function.undocumented = (rules.bind c function).undocumented := by
  have hglue : rules.binding.index.glueFunction c.undocumented function.undocumented =
      rules.binding.index.glueFunction c function := by
    unfold WrapperIndex.glueFunction
    rw [ScopedClass.exportName_undocumented, ScopedClass.pointerSpelling_undocumented,
      ScopedClass.glueHandle_undocumented, ScopedClass.qualifiedName_undocumented]
    rfl
  have hname : rules.binding.wrapperName c.undocumented = rules.binding.wrapperName c := by
    rw [BindingRules.wrapperName, BindingRules.wrapperName, ScopedClass.name_undocumented]
  have hwrapper : ∀ exportName,
      rules.binding.wrapFunction c.undocumented function.undocumented exportName =
        (rules.binding.wrapFunction c function exportName).undocumented := by
    intro exportName
    unfold BindingRules.wrapFunction
    rw [hname]
    change (if function.isConstructor then _ else _) = _
    split <;> rfl
  rw [bind, bind, hglue, ScopedClass.exportName_undocumented, FunctionOutcome.undocumented,
    BindingRules.bindFunction, hwrapper]
  rfl

theorem outcomes_undocumented (c : ScopedClass) (taken : List String)
    (functions : List MemberFunction) :
    rules.outcomes c.undocumented taken (functions.map (·.undocumented)) =
      (rules.outcomes c taken functions).map (·.undocumented) := by
  induction functions generalizing taken with
  | nil => rfl
  | cons function rest ih =>
    have hfault : rules.admission.fault? function.undocumented = rules.admission.fault? function :=
      rfl
    simp only [List.map_cons, outcomes, hfault, ScopedClass.exportName_undocumented, ih,
      bind_undocumented]
    split
    · rfl
    · split <;> rfl

theorem admitted_undocumented (c : ScopedClass) :
    rules.admitted c.undocumented = (rules.admitted c).map (·.undocumented) := by
  have hbound : ∀ constructors : List MemberFunction,
      rules.constructors.bound? (constructors.map (·.undocumented)) =
        (rules.constructors.bound? constructors).map (·.undocumented) := by
    intro constructors
    cases rules.constructors <;> cases constructors <;> rfl
  rw [admitted, admitted, ScopedClass.undocumented, NativeClass.undocumented_eq, hbound,
    List.map_append, Option.toList_map]

theorem dropped_undocumented (constructors : List MemberFunction) (reason : SkipReason) :
    (rules.constructors.dropped (constructors.map (·.undocumented))).map
        (fun function => FunctionOutcome.skipped function.name reason) =
      (rules.constructors.dropped constructors).map
        fun function => .skipped function.name reason := by
  have hname : (fun function : MemberFunction => FunctionOutcome.skipped function.name reason) ∘
      MemberFunction.undocumented = fun function => .skipped function.name reason := rfl
  cases rules.constructors <;>
    simp only [ConstructorPolicy.dropped, ← List.map_tail, List.map_map, hname]

theorem bindClass_undocumented (taken : List String) (c : ScopedClass) :
    rules.bindClass taken c.undocumented = (rules.bindClass taken c).undocumented := by
  have hname : rules.binding.wrapperName c.undocumented = rules.binding.wrapperName c := by
    rw [BindingRules.wrapperName, BindingRules.wrapperName, ScopedClass.name_undocumented]
  have hconstructors : c.undocumented.decl.constructors =
      c.decl.constructors.map (·.undocumented) := by
    rw [ScopedClass.undocumented, NativeClass.undocumented_eq]
  rw [bindClass, hname, hconstructors, dropped_undocumented, admitted_undocumented,
    outcomes_undocumented, bindClass, ClassBindings.undocumented]

theorem bindClasses_undocumented (taken : List String) (classes : List ScopedClass) :
    rules.bindClasses taken (classes.map (·.undocumented)) =
      (rules.bindClasses taken classes).map (·.undocumented) := by
  induction classes generalizing taken with
  | nil => rfl
  | cons c rest ih =>
    rw [List.map_cons, bindClasses, bindClasses, bindClass_undocumented,
      ClassBindings.functionExports_undocumented, ih, List.map_cons]

end GenerationRules

theorem ClassVerdict.selected_undocumented (decided : List ClassVerdict) :
    (decided.map (·.undocumented)).filterMap (·.selected?) =
      (decided.filterMap (·.selected?)).map (·.undocumented) := by
  rw [List.filterMap_map, List.map_filterMap]
  apply List.filterMap_congr
  rintro ⟨c, _ | reason⟩ _ <;> rfl

theorem ClassVerdict.records_undocumented (decided : List ClassVerdict) :
    (decided.map (·.undocumented)).filterMap (·.record?) = decided.filterMap (·.record?) := by
  rw [List.filterMap_map]
  apply List.filterMap_congr
  rintro ⟨c, _ | reason⟩ _
  · rfl
  · simp [undocumented, record?]

namespace GeneratorSettings

variable (settings : GeneratorSettings)

theorem bindSelected_undocumented (selected : List ScopedClass) :
    settings.bindSelected (selected.map (·.undocumented)) =
      (settings.bindSelected selected).map (·.undocumented) := by
  have hrules : GenerationRules.ofSelected settings (selected.map (·.undocumented)) =
      GenerationRules.ofSelected settings selected := by
    apply GenerationRules.ofSelected_congr
    rw [List.map_map]
    apply List.map_congr_left
    intro c _
    simp
  have hnames : (selected.map (·.undocumented)).map (·.disposeName) =
      selected.map (·.disposeName) := by
    rw [List.map_map]
    apply List.map_congr_left
    intro c _
    simp
  rw [bindSelected, hrules, hnames, GenerationRules.bindClasses_undocumented, bindSelected]

theorem assemble_undocumented (tree : Declarations) :
    settings.assemble tree.undocumented = (settings.assemble tree).undocumented := by
  have hdecided : settings.classVerdicts tree.undocumented =
      (settings.classVerdicts tree).map (·.undocumented) := by
    rw [classVerdicts, classVerdicts, Declarations.scopedClasses_undocumented,
      Denylist.classVerdicts_undocumented]
  rw [assemble_eq_assembleDecided, hdecided, assemble_eq_assembleDecided]
  simp only [assembleDecided, ClassVerdict.selected_undocumented,
    ClassVerdict.records_undocumented, bindSelected_undocumented, List.map_map, List.flatMap_map,
    Generated.undocumented, BindingDocument.undocumented, Function.comp_def,
    ClassBindings.glue_undocumented, ClassBindings.binding_undocumented,
    ClassBindings.report_undocumented, ClassBindings.skipped_undocumented]

variable {tree tree' : Declarations} {generated : Generated}

/-- Trees that are the same but for documentation and locations give the same glue and the same
report, and bindings with the same code. -/
theorem documentation_is_inert (same : tree.undocumented = tree'.undocumented)
    (h : settings.generate tree = .ok generated) :
    ∃ generated', settings.generate tree' = .ok generated' ∧
      generated'.glue.text = generated.glue.text ∧ generated'.report = generated.report ∧
      codeLines generated'.bindings.text = codeLines generated.bindings.text := by
  obtain ⟨hvalid, rfl⟩ := generate_eq_ok_iff.mp h
  have hvalid' : tree'.validate = .ok () := by
    rwa [← Declarations.validate_undocumented, ← same, Declarations.validate_undocumented]
  have hsame : (settings.assemble tree').undocumented = (settings.assemble tree).undocumented := by
    rw [← assemble_undocumented, ← assemble_undocumented, same]
  rw [Generated.undocumented, Generated.undocumented, Generated.mk.injEq] at hsame
  obtain ⟨hglue, hbindings, hreport⟩ := hsame
  refine ⟨settings.assemble tree', generate_eq_ok_iff.mpr ⟨hvalid', rfl⟩, by rw [hglue], hreport,
    ?_⟩
  rw [BindingDocument.codeLines_text, hbindings, ← BindingDocument.codeLines_text]

theorem documentation_is_inert_documented :
    ∃ generated generated',
      GeneratorSettings.default.generate .documented = .ok generated ∧
      GeneratorSettings.default.generate Declarations.documented.undocumented = .ok generated' ∧
      generated'.glue.text = generated.glue.text ∧ generated'.report = generated.report ∧
      codeLines generated'.bindings.text = codeLines generated.bindings.text := by
  have h : GeneratorSettings.default.generate .documented =
      .ok (GeneratorSettings.default.assemble .documented) :=
    generate_eq_ok_iff.mpr ⟨rfl, rfl⟩
  have same : Declarations.documented.undocumented =
      Declarations.documented.undocumented.undocumented := by rfl
  obtain ⟨generated', h', hglue, hreport, hcode⟩ := documentation_is_inert .default same h
  exact ⟨_, generated', h, h', hglue, hreport, hcode⟩

end GeneratorSettings

end NativeBindings
