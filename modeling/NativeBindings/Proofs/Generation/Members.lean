import NativeBindings.Proofs.Generation.Account
import NativeBindings.Proofs.Scope.Edit

/-!
# What a run reads of classes

A run decides about all classes by their paths, and binds the members of those that are selected.
The classes nested in a class do not count as part of it, and a member counts in its own class only.
-/

namespace NativeBindings

/-- The class with other members, and nothing nested in it. -/
def ScopedClass.withMembers (c : ScopedClass) (constructors functions : List MemberFunction) :
    ScopedClass :=
  { c with decl :=
    { c.decl with constructors := constructors, functions := functions, classes := [] } }

theorem ScopedClass.alone_eq_withMembers (c : ScopedClass) :
    c.alone = c.withMembers c.decl.constructors c.decl.functions := rfl

def ClassVerdict.alone (v : ClassVerdict) : ClassVerdict := (v.1.alone, v.2)

def ClassBindings.alone (b : ClassBindings) : ClassBindings := { b with owner := b.owner.alone }

namespace GenerationRules

theorem ofSelected_congr {settings : GeneratorSettings} {selected selected' : List ScopedClass}
    (h : selected.map (fun c => (c.name, c.qualifiedName)) =
      selected'.map fun c => (c.name, c.qualifiedName)) :
    ofSelected settings selected = ofSelected settings selected' := by
  have hindex : ∀ classes : List ScopedClass,
      WrapperIndex.ofList (classes.map fun c => (c, settings.aliases.hostName c.name)) =
        (classes.map fun c => (c.name, c.qualifiedName)).foldl (fun index names =>
          (index.putNew names.1 (settings.aliases.hostName names.1)).put names.2
            (settings.aliases.hostName names.1)) .empty := by
    intro classes
    rw [WrapperIndex.ofList, List.foldl_map, List.foldl_map]
    rfl
  simp only [ofSelected, hindex, h]

variable (rules : GenerationRules)

/-- What becomes of functions depends on the path of their class, not on its other members. -/
theorem outcomes_withMembers (c : ScopedClass) (constructors methods : List MemberFunction)
    (taken : List String) (functions : List MemberFunction) :
    rules.outcomes (c.withMembers constructors methods) taken functions =
      rules.outcomes c taken functions := by
  induction functions generalizing taken with
  | nil => rfl
  | cons function rest ih =>
    simp only [outcomes, ih]
    rfl

theorem bindClass_withMembers (taken : List String) (c : ScopedClass)
    (constructors functions : List MemberFunction) :
    rules.bindClass taken (c.withMembers constructors functions) =
      { owner := c.withMembers constructors functions
        wrapperName := rules.binding.wrapperName c
        dropped := (rules.constructors.dropped constructors).map fun function =>
          .skipped function.name rules.constructors.reason
        outcomes := rules.outcomes c taken
          ((rules.constructors.bound? constructors).toList ++ functions) } := by
  rw [bindClass, outcomes_withMembers]
  rfl

theorem bindClass_alone (taken : List String) (c : ScopedClass) :
    rules.bindClass taken c.alone = (rules.bindClass taken c).alone := by
  rw [ScopedClass.alone_eq_withMembers, bindClass_withMembers]
  rfl

theorem bindClasses_alone (taken : List String) (classes : List ScopedClass) :
    rules.bindClasses taken (classes.map (·.alone)) =
      (rules.bindClasses taken classes).map (·.alone) := by
  induction classes generalizing taken with
  | nil => rfl
  | cons c rest ih =>
    rw [List.map_cons, bindClasses, bindClasses, bindClass_alone, List.map_cons, ← ih]
    rfl

/-- What is bound first decides which names are gone for the rest. -/
theorem exists_bindClasses_append (taken : List String) (classes : List ScopedClass) :
    ∃ gone, ∀ more, rules.bindClasses taken (classes ++ more) =
      rules.bindClasses taken classes ++ rules.bindClasses gone more := by
  induction classes generalizing taken with
  | nil => exact ⟨taken, fun _ => rfl⟩
  | cons c rest ih =>
    obtain ⟨gone, h⟩ := ih ((rules.bindClass taken c).functionExports ++ taken)
    refine ⟨gone, fun more => ?_⟩
    rw [List.cons_append, bindClasses, bindClasses, h, List.cons_append]

theorem bindClasses_owner (taken : List String) (classes : List ScopedClass) :
    (rules.bindClasses taken classes).map (·.owner) = classes := by
  rw [bindClasses_eq_map, List.map_map]
  exact rules.accounts_owner taken classes

end GenerationRules

namespace GeneratorSettings

variable (settings : GeneratorSettings)

def bindSelected (selected : List ScopedClass) : List ClassBindings :=
  (GenerationRules.ofSelected settings selected).bindClasses (selected.map (·.disposeName)) selected

theorem bindSelected_owner (selected : List ScopedClass) :
    (settings.bindSelected selected).map (·.owner) = selected :=
  GenerationRules.bindClasses_owner _ _ selected

/-- The documents and the report from what is decided about classes. -/
def assembleDecided (decided : List ClassVerdict) : Generated :=
  let classes := settings.bindSelected (decided.filterMap (·.selected?))
  { glue := ⟨settings.headerInclude, classes.map (·.glue)⟩
    bindings := ⟨settings.namespaceName, settings.libraryReference, classes.map (·.binding)⟩
    report :=
      { classes := classes.map (·.report)
        skipped := decided.filterMap (·.record?) ++ classes.flatMap (·.skipped) } }

theorem assemble_eq_assembleDecided (tree : Declarations) :
    settings.assemble tree = settings.assembleDecided (settings.classVerdicts tree) := rfl

theorem bindSelected_alone (selected : List ScopedClass) :
    settings.bindSelected (selected.map (·.alone)) =
      (settings.bindSelected selected).map (·.alone) := by
  have hrules : GenerationRules.ofSelected settings (selected.map (·.alone)) =
      GenerationRules.ofSelected settings selected := by
    apply GenerationRules.ofSelected_congr
    rw [List.map_map]
    rfl
  have hnames : (selected.map (·.alone)).map (·.disposeName) = selected.map (·.disposeName) := by
    rw [List.map_map]
    rfl
  rw [bindSelected, hrules, hnames, GenerationRules.bindClasses_alone, bindSelected]

theorem selected_alone (decided : List ClassVerdict) :
    (decided.map (·.alone)).filterMap (·.selected?) =
      (decided.filterMap (·.selected?)).map (·.alone) := by
  rw [List.filterMap_map, List.map_filterMap]
  apply List.filterMap_congr
  rintro ⟨c, _ | reason⟩ _ <;> rfl

theorem assembleDecided_alone (decided : List ClassVerdict) :
    settings.assembleDecided (decided.map (·.alone)) = settings.assembleDecided decided := by
  have hrecords : (decided.map (·.alone)).filterMap (·.record?) =
      decided.filterMap (·.record?) := by
    rw [List.filterMap_map]
    apply List.filterMap_congr
    rintro ⟨c, _ | reason⟩ _ <;> rfl
  simp only [assembleDecided, selected_alone, bindSelected_alone, hrecords, List.map_map,
    List.flatMap_map]
  rfl

end GeneratorSettings

end NativeBindings
