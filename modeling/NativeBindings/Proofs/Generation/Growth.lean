import NativeBindings.Proofs.Boundary.Plans
import NativeBindings.Proofs.Documents.Growth
import NativeBindings.Proofs.Generation.Members
import NativeBindings.Proofs.Policy.Admission

/-!
# Growth of the output

A class that comes after all others changes nothing that is emitted before it, unless a function
before it mentions one of the added classes or exports the name of one of their destructors.
-/

namespace NativeBindings

namespace Declarations

theorem scopedClasses_addClass (tree : Declarations) (added : NativeClass) :
    (tree.addClass added).scopedClasses = tree.scopedClasses ++ added.inScope [] := by
  change NativeClass.allInScope [] (tree.classes ++ [added]) = _
  rw [NativeClass.allInScope_append, NativeClass.allInScope, NativeClass.allInScope,
    List.append_nil]
  rfl

theorem validate_of_addClass {tree : Declarations} {added : NativeClass}
    (h : (tree.addClass added).validate = .ok ()) : tree.validate = .ok () := by
  obtain ⟨hclasses, hnames⟩ := validateSiblings_eq_ok_iff.mp h
  apply validateSiblings_eq_ok_iff.mpr
  constructor
  · intro c hc
    exact hclasses c (List.mem_append_left _ hc)
  · have hsplit : ((tree.classes ++ [added]).map (·.name)).Nodup := hnames
    rw [List.map_append] at hsplit
    exact hsplit.of_append_left

end Declarations

theorem Denylist.exists_classVerdicts_append (denylist : Denylist) (ignored reserved : List String)
    (classes more : List ScopedClass) :
    ∃ ignored' reserved', denylist.classVerdicts ignored reserved (classes ++ more) =
      denylist.classVerdicts ignored reserved classes ++
        denylist.classVerdicts ignored' reserved' more := by
  induction classes generalizing ignored reserved with
  | nil => exact ⟨ignored, reserved, rfl⟩
  | cons c rest ih =>
    simp only [List.cons_append, classVerdicts]
    split
    · obtain ⟨ignored', reserved', h⟩ := ih (c.qualifiedName :: ignored) reserved
      exact ⟨ignored', reserved', congrArg _ h⟩
    · split
      · obtain ⟨ignored', reserved', h⟩ := ih ignored reserved
        exact ⟨ignored', reserved', congrArg _ h⟩
      · obtain ⟨ignored', reserved', h⟩ := ih ignored (c.disposeName :: reserved)
        exact ⟨ignored', reserved', congrArg _ h⟩

theorem GeneratorSettings.exists_selectedClasses_addClass (settings : GeneratorSettings)
    (tree : Declarations) (added : NativeClass) :
    ∃ more, settings.selectedClasses (tree.addClass added) =
        settings.selectedClasses tree ++ more ∧ more ⊆ added.inScope [] := by
  obtain ⟨ignored, reserved, h⟩ :=
    settings.denylist.exists_classVerdicts_append [] [] tree.scopedClasses (added.inScope [])
  let decided := settings.denylist.classVerdicts ignored reserved (added.inScope [])
  refine ⟨decided.filterMap (·.selected?), ?_, ?_⟩
  · rw [selectedClasses, classVerdicts, Declarations.scopedClasses_addClass, h,
      List.filterMap_append]
    rfl
  · have hsub := (ClassVerdict.selected_sublist decided).subset
    rwa [settings.denylist.classVerdicts_fst ignored reserved (added.inScope [])] at hsub

namespace GenerationRules

/-- Two runs treat a function of a class alike when these export names are gone. -/
structure Alike (rules rules' : GenerationRules) (taken taken' : List String) (c : ScopedClass)
    (function : MemberFunction) : Prop where
  fault : rules.admission.fault? function = rules'.admission.fault? function
  bind : rules.bind c function = rules'.bind c function
  gone : c.exportName function ∈ taken ↔ c.exportName function ∈ taken'

variable {rules rules' : GenerationRules} {taken taken' : List String} {c : ScopedClass}

theorem Alike.append {function : MemberFunction} (h : Alike rules rules' taken taken' c function)
    (names : List String) : Alike rules rules' (names ++ taken) (names ++ taken') c function where
  fault := h.fault
  bind := h.bind
  gone := by rw [List.mem_append, List.mem_append, h.gone]

theorem outcomes_congr {functions : List MemberFunction}
    (h : ∀ function ∈ functions, Alike rules rules' taken taken' c function) :
    rules.outcomes c taken functions = rules'.outcomes c taken' functions := by
  induction functions generalizing taken taken' with
  | nil => rfl
  | cons function rest ih =>
    obtain ⟨hhead, hrest⟩ := List.forall_mem_cons.mp h
    have hgone : taken.contains (c.exportName function) =
        taken'.contains (c.exportName function) := by
      rw [Bool.eq_iff_iff, List.contains_iff_mem, List.contains_iff_mem]
      exact hhead.gone
    have htaken := ih fun other hm => (hrest other hm).append [c.exportName function]
    rw [List.singleton_append, List.singleton_append] at htaken
    simp only [outcomes, hhead.fault, hhead.bind, hgone, ih hrest, htaken]

theorem bindClass_congr (hconstructors : rules.constructors = rules'.constructors)
    (hname : rules.binding.wrapperName c = rules'.binding.wrapperName c)
    (h : ∀ function ∈ c.decl.members, Alike rules rules' taken taken' c function) :
    rules.bindClass taken c = rules'.bindClass taken' c := by
  have houtcomes : rules.outcomes c taken (rules.admitted c) =
      rules'.outcomes c taken' (rules'.admitted c) := by
    have hsame : rules'.admitted c = rules.admitted c := by
      rw [admitted, admitted, hconstructors]
    rw [hsame]
    exact outcomes_congr fun function hf =>
      h function (rules.constructors.admitted_subset c.decl hf)
  rw [bindClass, bindClass, houtcomes, hconstructors, hname]

theorem bindClasses_congr {classes : List ScopedClass}
    (hconstructors : rules.constructors = rules'.constructors)
    (hname : ∀ c, rules.binding.wrapperName c = rules'.binding.wrapperName c)
    (h : ∀ c ∈ classes, ∀ function ∈ c.decl.members,
      Alike rules rules' taken taken' c function) :
    rules.bindClasses taken classes = rules'.bindClasses taken' classes := by
  induction classes generalizing taken taken' with
  | nil => rfl
  | cons c rest ih =>
    obtain ⟨hhead, hrest⟩ := List.forall_mem_cons.mp h
    have hclass := bindClass_congr hconstructors (hname c) hhead
    rw [bindClasses, bindClasses, hclass]
    congr 1
    apply ih
    intro d hd function hf
    exact (hrest d hd function hf).append _

/-- More selected classes change nothing for a function whose signature does not mention them and
whose export name is not that of their destructors. -/
theorem alike_append {settings : GeneratorSettings} {selected more : List ScopedClass}
    {function : MemberFunction}
    (hmentions : ∀ type ∈ function.types, ∀ d ∈ more, ¬ d.IsNamed type.baseName)
    (hexport : ∀ d ∈ more, c.exportName function ≠ d.disposeName) :
    Alike (ofSelected settings (selected ++ more)) (ofSelected settings selected)
      ((selected ++ more).map (·.disposeName)) (selected.map (·.disposeName)) c function := by
  have hindex : WrapperIndex.AgreeOn (ofSelected settings (selected ++ more)).binding.index
      (ofSelected settings selected).binding.index function.types := by
    intro type htype
    simp only [ofSelected, WrapperIndex.wrapperFor?, List.map_append]
    apply WrapperIndex.find?_ofList_append
    intro x hx
    obtain ⟨d, hd, rfl⟩ := List.mem_map.mp hx
    exact hmentions type htype d hd
  refine ⟨Admission.fault?_congr settings.denylist hindex, ?_, ?_⟩
  · have hglue := WrapperIndex.glueFunction_congr c hindex
    have hmember := BindingRules.bindFunction_congr settings.aliases settings.naming c
      (c.exportName function) hindex
    exact congrArg₂ FunctionOutcome.bound hglue hmember
  · rw [List.map_append, List.mem_append]
    constructor
    · rintro (hold | hnew)
      · exact hold
      · obtain ⟨d, hd, heq⟩ := List.mem_map.mp hnew
        exact absurd heq.symm (hexport d hd)
    · exact Or.inl

end GenerationRules

theorem GeneratorSettings.exists_bindSelected_append {settings : GeneratorSettings}
    {selected more : List ScopedClass}
    (hmentions : ∀ c ∈ selected, ∀ function ∈ c.decl.members, ∀ type ∈ function.types,
      ∀ d ∈ more, ¬ d.IsNamed type.baseName)
    (hexports : ∀ c ∈ selected, ∀ function ∈ c.decl.members, ∀ d ∈ more,
      c.exportName function ≠ d.disposeName) :
    ∃ added,
      settings.bindSelected (selected ++ more) = settings.bindSelected selected ++ added := by
  let rules := GenerationRules.ofSelected settings (selected ++ more)
  obtain ⟨gone, happend⟩ :=
    rules.exists_bindClasses_append ((selected ++ more).map (·.disposeName)) selected
  refine ⟨rules.bindClasses gone more, ?_⟩
  rw [bindSelected, happend more, bindSelected]
  congr 1
  have halike : ∀ c ∈ selected, ∀ function ∈ c.decl.members,
      GenerationRules.Alike rules (.ofSelected settings selected)
        ((selected ++ more).map (·.disposeName)) (selected.map (·.disposeName)) c function := by
    intro c hc function hf
    exact GenerationRules.alike_append (hmentions c hc function hf) (hexports c hc function hf)
  exact GenerationRules.bindClasses_congr rfl (fun _ => rfl) halike

/-- Consider declarations with one more class at the end, with whatever is nested in it. If no
function that was there before mentions an added class by either of its names, and none exports the
name of the destructor of an added class, the run emits what it emitted before and then the rest:
the glue goes on behind its old end, the bindings behind the old last line but one, and the report
lists the old classes first. -/
theorem output_grows_locally {settings : GeneratorSettings} {tree : Declarations}
    {added : NativeClass} (valid : (tree.addClass added).validate = .ok ())
    (unmentioned : ∀ c ∈ tree.scopedClasses, ∀ function ∈ c.decl.members,
      ∀ type ∈ function.types, ∀ d ∈ added.inScope [], ¬ d.IsNamed type.baseName)
    (unclaimed : ∀ c ∈ tree.scopedClasses, ∀ function ∈ c.decl.members,
      ∀ d ∈ added.inScope [], c.exportName function ≠ d.disposeName) :
    ∃ result result', settings.generate tree = .ok result ∧
      settings.generate (tree.addClass added) = .ok result' ∧
      (∃ rest, result'.glue.text = result.glue.text ++ rest) ∧
      (∃ body rest, result.bindings.text = body ++ "\x7d\n" ∧
        result'.bindings.text = body ++ rest) ∧
      result.report.classes <+: result'.report.classes := by
  obtain ⟨more, hselected, hmore⟩ := settings.exists_selectedClasses_addClass tree added
  have hold := (settings.selectedClasses_sublist tree).subset
  obtain ⟨bound, hbound⟩ : ∃ bound, settings.classBindings (tree.addClass added) =
      settings.classBindings tree ++ bound := by
    change ∃ bound, settings.bindSelected (settings.selectedClasses (tree.addClass added)) =
      settings.bindSelected (settings.selectedClasses tree) ++ bound
    rw [hselected]
    apply GeneratorSettings.exists_bindSelected_append
    · intro c hc function hf type ht d hd
      exact unmentioned c (hold hc) function hf type ht d (hmore hd)
    · intro c hc function hf d hd
      exact unclaimed c (hold hc) function hf d (hmore hd)
  refine ⟨_, _, GeneratorSettings.generate_eq_ok_iff.mpr
      ⟨Declarations.validate_of_addClass valid, rfl⟩,
    GeneratorSettings.generate_eq_ok_iff.mpr ⟨valid, rfl⟩, ?_, ?_, ?_⟩
  · simp only [GeneratorSettings.assemble, hbound, List.map_append]
    exact GlueDocument.exists_text_append _ _ _
  · simp only [GeneratorSettings.assemble, hbound, List.map_append]
    obtain ⟨rest, hrest⟩ := BindingDocument.exists_body_append settings.namespaceName
      settings.libraryReference ((settings.classBindings tree).map (·.binding))
      (bound.map (·.binding))
    refine ⟨_, rest ++ "\x7d\n", BindingDocument.text_eq_body _, ?_⟩
    rw [BindingDocument.text_eq_body, hrest, String.append_assoc]
  · simp only [GeneratorSettings.assemble, hbound, List.map_append]
    exact List.prefix_append _ _

def Declarations.lists : Declarations :=
  let append := (MemberFunction.method "append" .void).addParameter ⟨"other", ⟨"const List &"⟩⟩
  ⟨none, [(NativeClass.ofName "List").addConstructor (.constructor "List") |>.addFunction append]⟩

/-- A class with a class inside; their methods return objects of each other and lists. -/
def NativeClass.log : NativeClass :=
  let entry := (NativeClass.ofName "Entry").addFunction (.method "log" ⟨"Log *"⟩)
  (NativeClass.ofName "Log").addFunction (.method "entries" ⟨"List *"⟩) |>.addClass entry

theorem output_grows_locally_log :
    (Declarations.lists.addClass .log).validate = .ok () ∧
      ∃ result result', GeneratorSettings.default.generate .lists = .ok result ∧
        GeneratorSettings.default.generate (Declarations.lists.addClass .log) = .ok result' ∧
        (∃ rest, result'.glue.text = result.glue.text ++ rest) ∧
        (∃ body rest, result.bindings.text = body ++ "\x7d\n" ∧
          result'.bindings.text = body ++ rest) ∧
        result.report.classes.map (·.qualifiedName) = ["List"] ∧
        result'.report.classes.map (·.qualifiedName) = ["List", "Log", "Log::Entry"] := by
  have hvalid : (Declarations.lists.addClass .log).validate = .ok () := rfl
  have hunmentioned : ∀ c ∈ Declarations.lists.scopedClasses, ∀ function ∈ c.decl.members,
      ∀ type ∈ function.types, ∀ d ∈ NativeClass.log.inScope [], ¬ d.IsNamed type.baseName := by
    decide +kernel
  have hunclaimed : ∀ c ∈ Declarations.lists.scopedClasses, ∀ function ∈ c.decl.members,
      ∀ d ∈ NativeClass.log.inScope [], c.exportName function ≠ d.disposeName := by
    decide +kernel
  obtain ⟨result, result', h, h', hglue, hbindings, -⟩ :=
    @output_grows_locally .default _ _ hvalid hunmentioned hunclaimed
  refine ⟨hvalid, result, result', h, h', hglue, hbindings, ?_⟩
  obtain ⟨-, rfl⟩ := GeneratorSettings.generate_eq_ok_iff.mp h
  obtain ⟨-, rfl⟩ := GeneratorSettings.generate_eq_ok_iff.mp h'
  decide +kernel

end NativeBindings
