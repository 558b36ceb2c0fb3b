import NativeBindings.Proofs.Boundary.Plans
import NativeBindings.Proofs.Generation.Resolution

/-!
# Handles of classes in scope

A bare name in a member of a class stands for a class that is found from the inside out: the class
itself or one nested in it, then the same for each class around it, and at last a top-level class.
But the index knows one class for each bare name. So a type crosses the boundary as a handle of the
class that it stands for, unless that class is left out and another of its name is emitted.
-/

namespace NativeBindings

namespace Declarations

variable {tree : Declarations} {name : String} {d : ScopedClass}

def classAt? (tree : Declarations) (path : List String) : Option ScopedClass :=
  tree.scopedClasses.find? (·.path == path)

/-- The class that a name stands for inside a chain of scopes, which is given from the inside
out. -/
def lookUp? (tree : Declarations) (name : String) : List String → Option ScopedClass
  | [] => tree.classAt? [name]
  | scope :: outer =>
    let own := if scope = name then tree.classAt? (scope :: outer).reverse else none
    (own.or (tree.classAt? (name :: scope :: outer).reverse)).or (tree.lookUp? name outer)

theorem classAt?_eq_some {path : List String} (h : tree.classAt? path = some d) :
    d ∈ tree.scopedClasses ∧ d.path = path := by
  have hpath := List.find?_some h
  exact ⟨List.mem_of_find?_eq_some h, eq_of_beq hpath⟩

theorem name_of_classAt? {outer : List String} (h : tree.classAt? (outer ++ [name]) = some d) :
    d ∈ tree.scopedClasses ∧ d.name = name := by
  obtain ⟨hd, hpath⟩ := classAt?_eq_some h
  obtain ⟨-, hlast⟩ := List.append_inj' hpath rfl
  exact ⟨hd, (List.cons.inj hlast).1⟩

theorem lookUp?_eq_some {scopes : List String} (h : tree.lookUp? name scopes = some d) :
    d ∈ tree.scopedClasses ∧ d.name = name := by
  induction scopes with
  | nil => exact @name_of_classAt? tree name d [] h
  | cons scope outer ih =>
    rw [lookUp?, Option.or_eq_some_iff, Option.or_eq_some_iff] at h
    rcases h with (hown | ⟨-, hnested⟩) | ⟨-, houter⟩
    · split at hown
      · rename_i hscope
        subst hscope
        rw [List.reverse_cons] at hown
        exact name_of_classAt? hown
      · cases hown
    · rw [List.reverse_cons] at hnested
      exact name_of_classAt? hnested
    · exact ih houter

end Declarations

namespace GeneratorSettings

variable {settings : GeneratorSettings} {tree : Declarations}

theorem find?_runIndex_name (hu : tree.HasUnqualifiedNames) {e : ScopedClass}
    (he : e ∈ settings.selectedClasses tree) (wrapper : String) :
    (settings.runIndex tree).find? e.name = some wrapper ↔
      settings.aliases.hostName e.name = wrapper := by
  rw [find?_runIndex_eq_some_iff hu]
  constructor
  · rintro ⟨c, hc, hnamed, hwrapper⟩
    have hce : c = e := eq_of_isNamed hu hc he hnamed (.inl rfl)
    rwa [hce] at hwrapper
  · intro hwrapper
    exact ⟨e, he, .inl rfl, hwrapper⟩

end GeneratorSettings

/-- Consider a type in an exported function whose base name stands for a class of the tree when it
is looked up from the class of the function. If no other class of this name is emitted, the type is
wrapped exactly if the class itself is emitted, and by its own wrapper. Otherwise the class is left
out, and the type is wrapped by the other class. -/
theorem class_in_scope_wraps {settings : GeneratorSettings} {tree : Declarations}
    {result : Generated} (unqualified : tree.HasUnqualifiedNames)
    (h : settings.generate tree = .ok result) :
    result.glue.classes = (settings.classAccounts tree).map (·.glue (settings.runRules tree)) ∧
      result.bindings.classes =
        (settings.classAccounts tree).map (·.binding (settings.runRules tree)) ∧
      ∀ a ∈ settings.classAccounts tree, ∀ x ∈ a.exported, ∀ type ∈ x.function.types, ∀ d,
        tree.lookUp? type.baseName a.owner.path.reverse = some d →
          ((∀ e ∈ result.emitted tree, e.name = d.name → e = d) → ∀ wrapper,
            (settings.runIndex tree).wrapperFor? type = some wrapper ↔
              d ∈ result.emitted tree ∧ (d.qualifiedName, wrapper) ∈ result.report.wrappers) ∧
          ∀ e ∈ result.emitted tree, e.name = d.name → e ≠ d →
            d ∉ result.emitted tree ∧ ∀ wrapper,
              (settings.runIndex tree).wrapperFor? type = some wrapper ↔
                (e.qualifiedName, wrapper) ∈ result.report.wrappers := by
  obtain ⟨valid, rfl⟩ := GeneratorSettings.generate_eq_ok_iff.mp h
  refine ⟨settings.glue_assemble tree, settings.bindings_assemble tree, ?_⟩
  intro a _ x _ type _ d hfound
  obtain ⟨hd, hbase⟩ := Declarations.lookUp?_eq_some hfound
  have hemitted : ∀ c, c ∈ (settings.assemble tree).emitted tree ↔
      c ∈ settings.selectedClasses tree := fun c =>
    GeneratorSettings.mem_emitted_iff valid unqualified
  have hrecords : ∀ e ∈ settings.selectedClasses tree, e.name = d.name → ∀ wrapper,
      (settings.runIndex tree).wrapperFor? type = some wrapper ↔
        (e.qualifiedName, wrapper) ∈ (settings.assemble tree).report.wrappers := by
    intro e he hname wrapper
    have hclass := (settings.selectedClasses_sublist tree).subset he
    rw [WrapperIndex.wrapperFor?, ← hbase, ← hname,
      GeneratorSettings.find?_runIndex_name unqualified he,
      GeneratorSettings.mem_wrappers_iff valid unqualified hclass]
    exact (and_iff_right he).symm
  constructor
  · intro honly wrapper
    constructor
    · intro hwrapper
      obtain ⟨e, he, hnamed, -⟩ :=
        (GeneratorSettings.find?_runIndex_eq_some_iff unqualified).mp hwrapper
      have hclass := (settings.selectedClasses_sublist tree).subset he
      have hname : e.name = d.name :=
        Declarations.name_eq_of_isNamed unqualified hclass hd hnamed (.inl hbase.symm)
      have hed : e = d := honly e ((hemitted e).mpr he) hname
      subst hed
      exact ⟨(hemitted e).mpr he, (hrecords e he rfl wrapper).mp hwrapper⟩
    · rintro ⟨hselected, hrecord⟩
      exact (hrecords d ((hemitted d).mp hselected) rfl wrapper).mpr hrecord
  · intro e he hname hne
    have hselected := (hemitted e).mp he
    refine ⟨fun hd' => hne ?_, hrecords e hselected hname⟩
    exact GeneratorSettings.eq_of_isNamed unqualified hselected ((hemitted d).mp hd')
      (.inl rfl) (.inl hname)

/-- Two classes with a class of the same name inside, and methods that take an object of the inner
class. -/
def Declarations.twins : Declarations :=
  let use := (MemberFunction.method "use" .void).addParameter ⟨"n", ⟨"Node *"⟩⟩
  let owner (name : String) :=
    (NativeClass.ofName name).addFunction use |>.addClass (.ofName "Node")
  ⟨none, [owner "A", owner "B"]⟩

theorem GeneratorSettings.generate_twins :
    GeneratorSettings.default.generate .twins =
      .ok (GeneratorSettings.default.assemble .twins) :=
  generate_eq_ok_iff.mpr ⟨rfl, rfl⟩

theorem class_in_scope_wraps_first :
    Declarations.twins.HasUnqualifiedNames ∧
      ∃ result, GeneratorSettings.default.generate .twins = .ok result ∧
        ∃ a ∈ GeneratorSettings.default.classAccounts .twins, a.owner.name = "A" ∧
          ∃ x ∈ a.exported, ∃ type ∈ x.function.types, type.baseName = "Node" ∧
            ∃ d, Declarations.twins.lookUp? type.baseName a.owner.path.reverse = some d ∧
              d.qualifiedName = "A::Node" ∧ d ∈ result.emitted .twins ∧
                (GeneratorSettings.default.runIndex .twins).wrapperFor? type = some "Node" := by
  have hnames : Declarations.twins.HasUnqualifiedNames := by decide +kernel
  have hfound : ∃ a ∈ GeneratorSettings.default.classAccounts .twins, a.owner.name = "A" ∧
      ∃ x ∈ a.exported, ∃ type ∈ x.function.types, type.baseName = "Node" ∧
        (Declarations.twins.lookUp? type.baseName a.owner.path.reverse).map (·.qualifiedName) =
          some "A::Node" := by
    decide +kernel
  have hrecord : ("A::Node", "Node") ∈
      (GeneratorSettings.default.assemble .twins).report.wrappers := by
    decide +kernel
  obtain ⟨-, -, hwraps⟩ := class_in_scope_wraps hnames GeneratorSettings.generate_twins
  obtain ⟨a, ha, howner, x, hx, type, htype, hbase, hlook⟩ := hfound
  obtain ⟨d, hd, hqualified⟩ := Option.map_eq_some_iff.mp hlook
  obtain ⟨hclass, -⟩ := Declarations.lookUp?_eq_some hd
  have hselected : d ∈ GeneratorSettings.default.selectedClasses .twins :=
    ((GeneratorSettings.mem_wrappers_iff rfl hnames hclass).mp (hqualified ▸ hrecord)).1
  have hemitted := (GeneratorSettings.mem_emitted_iff rfl hnames).mpr hselected
  have honly : ∀ e ∈ (GeneratorSettings.default.assemble .twins).emitted .twins,
      e.name = d.name → e = d := by
    intro e he hsame
    have hselected' := (GeneratorSettings.mem_emitted_iff rfl hnames).mp he
    exact GeneratorSettings.eq_of_isNamed hnames hselected' hselected (.inl rfl) (.inl hsame)
  obtain ⟨hown, -⟩ := hwraps a ha x hx type htype d hd
  refine ⟨hnames, _, GeneratorSettings.generate_twins, a, ha, howner, x, hx, type, htype, hbase, d,
    hd, hqualified, hemitted, ?_⟩
  exact (hown honly "Node").mpr ⟨hemitted, hqualified ▸ hrecord⟩

/-- In the second class, the name stands for the inner class that is left out, but its method takes
a handle of the other one. -/
theorem class_left_out_wrapped :
    ∃ result, GeneratorSettings.default.generate .twins = .ok result ∧
      ("A::Node", "Node") ∈ result.report.wrappers ∧
      (∃ a ∈ GeneratorSettings.default.classAccounts .twins, a.owner.name = "B" ∧
        ∃ x ∈ a.exported, ∃ type ∈ x.function.types,
          ∃ d, Declarations.twins.lookUp? type.baseName a.owner.path.reverse = some d ∧
            d.qualifiedName = "B::Node" ∧ d ∉ result.emitted .twins ∧
              (GeneratorSettings.default.runIndex .twins).wrapperFor? type = some "Node") ∧
      ∃ c ∈ result.bindings.classes, c.wrapperName = "B" ∧ ∃ m ∈ c.members,
        m.wrapper.params = [⟨"Node", "n"⟩] ∧ m.wrapper.args = ["this.Handle", "n.Handle"] := by
  have hfound : ∃ a ∈ GeneratorSettings.default.classAccounts .twins, a.owner.name = "B" ∧
      ∃ x ∈ a.exported, ∃ type ∈ x.function.types,
        (GeneratorSettings.default.runIndex .twins).wrapperFor? type = some "Node" ∧
        (Declarations.twins.lookUp? type.baseName a.owner.path.reverse).map (·.qualifiedName) =
          some "B::Node" := by
    decide +kernel
  have habsent : "B::Node" ∉ (GeneratorSettings.default.assemble .twins).report.classes.map
      (·.qualifiedName) := by
    decide +kernel
  obtain ⟨a, ha, hname, x, hx, type, htype, hwrapper, hlook⟩ := hfound
  obtain ⟨d, hd, hqualified⟩ := Option.map_eq_some_iff.mp hlook
  refine ⟨_, GeneratorSettings.generate_twins, by decide +kernel,
    ⟨a, ha, hname, x, hx, type, htype, d, hd, hqualified, ?_, hwrapper⟩, by decide +kernel⟩
  intro hemitted
  have hlisted := (List.mem_filter.mp hemitted).2
  rw [hqualified, List.contains_iff_mem] at hlisted
  exact habsent hlisted

end NativeBindings
