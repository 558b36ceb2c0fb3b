import NativeBindings.Proofs.Generation.Selection
import NativeBindings.Proofs.Policy.Admission

/-!
# Resolution of names

The index of a run finds the classes that the run emits, each under its two names. Selected classes
have different names, and an unqualified name is no path through other classes, so that no name
stands for two of them.
-/

namespace NativeBindings

/-- The wrappers of all emitted classes, by their qualified names. -/
def GenerationReport.wrappers (report : GenerationReport) : List (String × String) :=
  report.classes.map fun entry => (entry.qualifiedName, entry.wrapper)

/-- The classes of the tree that the report has as emitted. -/
def Generated.emitted (result : Generated) (tree : Declarations) : List ScopedClass :=
  tree.scopedClasses.filter fun c =>
    (result.report.classes.map (·.qualifiedName)).contains c.qualifiedName

namespace Declarations

variable {tree : Declarations} {name : String}

theorem exists_path_of_isNamed (hu : tree.HasUnqualifiedNames) {c : ScopedClass}
    (hc : c ∈ tree.scopedClasses) (h : c.IsNamed name) :
    ∃ outer, scopePath (outer ++ [c.name]) = name ∧ ∀ n ∈ outer ++ [c.name], IsUnqualified n := by
  rcases h with rfl | rfl
  · refine ⟨[], String.intercalate_singleton, ?_⟩
    intro n hn
    rw [List.mem_singleton.mp hn]
    exact hu c hc
  · exact ⟨c.enclosing, rfl, fun n hn => isUnqualified_of_mem_path hu hc hn⟩

theorem name_eq_of_isNamed (hu : tree.HasUnqualifiedNames) {c d : ScopedClass}
    (hc : c ∈ tree.scopedClasses) (hd : d ∈ tree.scopedClasses) (hcn : c.IsNamed name)
    (hdn : d.IsNamed name) : c.name = d.name := by
  obtain ⟨outer, hp, hunqualified⟩ := exists_path_of_isNamed hu hc hcn
  obtain ⟨outer', hp', hunqualified'⟩ := exists_path_of_isNamed hu hd hdn
  have hpaths : outer ++ [c.name] = outer' ++ [d.name] :=
    scopePath_injective (by simp) (by simp) hunqualified hunqualified' (hp.trans hp'.symm)
  obtain ⟨-, hlast⟩ := List.append_inj' hpaths rfl
  exact (List.cons.inj hlast).1

end Declarations

namespace GeneratorSettings

variable {settings : GeneratorSettings} {tree : Declarations} {name wrapper : String}

/-- The index that a run consults. -/
def runIndex (settings : GeneratorSettings) (tree : Declarations) : WrapperIndex :=
  (settings.runRules tree).binding.index

theorem names_selectedClasses_nodup (settings : GeneratorSettings) (tree : Declarations) :
    ((settings.selectedClasses tree).map (·.name)).Nodup := by
  have hdispose := settings.denylist.disposeNames_nodup [] [] tree.scopedClasses
  have hmap : (settings.selectedClasses tree).map (·.disposeName) =
      ((settings.selectedClasses tree).map (·.name)).map (· ++ "_Dispose") := by
    rw [List.map_map]
    rfl
  exact List.Nodup.of_map _ (hmap ▸ hdispose)

/-- No name stands for two selected classes. -/
theorem eq_of_isNamed (hu : tree.HasUnqualifiedNames) {c d : ScopedClass}
    (hc : c ∈ settings.selectedClasses tree) (hd : d ∈ settings.selectedClasses tree)
    (hcn : c.IsNamed name) (hdn : d.IsNamed name) : c = d := by
  have hsub := (settings.selectedClasses_sublist tree).subset
  exact List.inj_on_of_nodup_map (settings.names_selectedClasses_nodup tree) hc hd
    (Declarations.name_eq_of_isNamed hu (hsub hc) (hsub hd) hcn hdn)

theorem find?_runIndex_eq_some_iff (hu : tree.HasUnqualifiedNames) :
    (settings.runIndex tree).find? name = some wrapper ↔
      ∃ c ∈ settings.selectedClasses tree, c.IsNamed name ∧
        settings.aliases.hostName c.name = wrapper := by
  let classes := (settings.selectedClasses tree).map fun c => (c, settings.aliases.hostName c.name)
  have hsame : ∀ x ∈ classes, ∀ y ∈ classes, x.1.IsNamed name → y.1.IsNamed name → x.2 = y.2 := by
    intro x hx y hy hxn hyn
    obtain ⟨c, hc, rfl⟩ := List.mem_map.mp hx
    obtain ⟨d, hd, rfl⟩ := List.mem_map.mp hy
    rw [eq_of_isNamed hu hc hd hxn hyn]
  change (WrapperIndex.ofList classes).find? name = some wrapper ↔ _
  rw [WrapperIndex.find?_ofList_eq_some_iff hsame]
  simp only [classes, List.mem_map, exists_exists_and_eq_and]

theorem wrappers_assemble (settings : GeneratorSettings) (tree : Declarations) :
    (settings.assemble tree).report.wrappers = (settings.selectedClasses tree).map fun c =>
      (c.qualifiedName, settings.aliases.hostName c.name) := by
  rw [GenerationReport.wrappers, (settings.runAccount tree).entries, List.map_map,
    ← settings.classAccounts_owner tree, List.map_map]
  rfl

theorem mem_wrappers_iff (hvalid : tree.validate = .ok ()) (hu : tree.HasUnqualifiedNames)
    {c : ScopedClass} (hc : c ∈ tree.scopedClasses) :
    (c.qualifiedName, wrapper) ∈ (settings.assemble tree).report.wrappers ↔
      c ∈ settings.selectedClasses tree ∧ settings.aliases.hostName c.name = wrapper := by
  rw [wrappers_assemble, List.mem_map]
  constructor
  · rintro ⟨d, hd, heq⟩
    obtain ⟨hqualified, rfl⟩ := Prod.mk.inj heq
    have hdc : d = c := List.inj_on_of_nodup_map (Declarations.qualifiedNames_nodup hvalid hu)
      ((settings.selectedClasses_sublist tree).subset hd) hc hqualified
    exact ⟨hdc ▸ hd, by rw [hdc]⟩
  · rintro ⟨hselected, rfl⟩
    exact ⟨c, hselected, rfl⟩

theorem mem_emitted_iff (hvalid : tree.validate = .ok ()) (hu : tree.HasUnqualifiedNames)
    {c : ScopedClass} :
    c ∈ (settings.assemble tree).emitted tree ↔ c ∈ settings.selectedClasses tree := by
  have hnames : (settings.assemble tree).report.classes.map (·.qualifiedName) =
      (settings.selectedClasses tree).map (·.qualifiedName) := by
    have h := congrArg (List.map Prod.fst) (settings.wrappers_assemble tree)
    rwa [GenerationReport.wrappers, List.map_map, List.map_map] at h
  rw [Generated.emitted, List.mem_filter, List.contains_iff_mem, hnames, List.mem_map]
  constructor
  · rintro ⟨hc, d, hd, hqualified⟩
    have hdc : d = c := List.inj_on_of_nodup_map (Declarations.qualifiedNames_nodup hvalid hu)
      ((settings.selectedClasses_sublist tree).subset hd) hc hqualified
    exact hdc ▸ hd
  · intro hselected
    exact ⟨(settings.selectedClasses_sublist tree).subset hselected, c, hselected, rfl⟩

end GeneratorSettings

/-- In a valid tree with unqualified names, the index of a run resolves a type if its base name is
one of the two names of an emitted class. Then there is one such class only, and the type gets the
wrapper that the report has for it. Emitted classes differ in their bare names, and each is found
under both of its names. -/
theorem index_resolves_emitted {settings : GeneratorSettings} {tree : Declarations}
    (valid : tree.validate = .ok ()) (unqualified : tree.HasUnqualifiedNames) :
    ∃ result, settings.generate tree = .ok result ∧
      (∀ (type : NativeType) (wrapper : String),
        (settings.runIndex tree).wrapperFor? type = some wrapper ↔
          ∃ c ∈ result.emitted tree, c.IsNamed type.baseName ∧
            (c.qualifiedName, wrapper) ∈ result.report.wrappers ∧
            ∀ d ∈ result.emitted tree, d.IsNamed type.baseName → d = c) ∧
      (∀ c ∈ result.emitted tree, ∀ d ∈ result.emitted tree, c.name = d.name → c = d) ∧
      ∀ c ∈ result.emitted tree, ∃ wrapper,
        (∀ recorded, (c.qualifiedName, recorded) ∈ result.report.wrappers ↔ recorded = wrapper) ∧
          (settings.runIndex tree).find? c.name = some wrapper ∧
          (settings.runIndex tree).find? c.qualifiedName = some wrapper := by
  have hemitted : ∀ c, c ∈ (settings.assemble tree).emitted tree ↔
      c ∈ settings.selectedClasses tree := fun c =>
    GeneratorSettings.mem_emitted_iff valid unqualified
  have hrecorded : ∀ c ∈ settings.selectedClasses tree, ∀ wrapper,
      (c.qualifiedName, wrapper) ∈ (settings.assemble tree).report.wrappers ↔
        settings.aliases.hostName c.name = wrapper := by
    intro c hc wrapper
    have hclass := (settings.selectedClasses_sublist tree).subset hc
    rw [GeneratorSettings.mem_wrappers_iff valid unqualified hclass]
    exact and_iff_right hc
  refine ⟨settings.assemble tree, GeneratorSettings.generate_eq_ok_iff.mpr ⟨valid, rfl⟩, ?_, ?_, ?_⟩
  · intro type wrapper
    rw [WrapperIndex.wrapperFor?, GeneratorSettings.find?_runIndex_eq_some_iff unqualified]
    constructor
    · rintro ⟨c, hc, hnamed, hwrapper⟩
      refine ⟨c, (hemitted c).mpr hc, hnamed, (hrecorded c hc wrapper).mpr hwrapper, ?_⟩
      intro d hd hdnamed
      exact GeneratorSettings.eq_of_isNamed unqualified ((hemitted d).mp hd) hc hdnamed hnamed
    · rintro ⟨c, hc, hnamed, hwrapper, -⟩
      have hselected := (hemitted c).mp hc
      exact ⟨c, hselected, hnamed, (hrecorded c hselected wrapper).mp hwrapper⟩
  · intro c hc d hd hname
    exact GeneratorSettings.eq_of_isNamed unqualified ((hemitted c).mp hc) ((hemitted d).mp hd)
      (.inl rfl) (.inl hname)
  · intro c hc
    have hselected := (hemitted c).mp hc
    refine ⟨settings.aliases.hostName c.name, ?_, ?_, ?_⟩
    · intro recorded
      rw [hrecorded c hselected, eq_comm]
    · exact (GeneratorSettings.find?_runIndex_eq_some_iff unqualified).mpr
        ⟨c, hselected, .inl rfl, rfl⟩
    · exact (GeneratorSettings.find?_runIndex_eq_some_iff unqualified).mpr
        ⟨c, hselected, .inr rfl, rfl⟩

theorem index_resolves_emitted_nested :
    Declarations.nested.validate = .ok () ∧ Declarations.nested.HasUnqualifiedNames ∧
      ∃ result, GeneratorSettings.default.generate .nested = .ok result ∧
        ("ParsedJson::iterator", "ParsedJsonIteratorN") ∈ result.report.wrappers ∧
        (GeneratorSettings.default.runIndex .nested).find? "iterator" =
          some "ParsedJsonIteratorN" ∧
        (GeneratorSettings.default.runIndex .nested).find? "ParsedJson::iterator" =
          some "ParsedJsonIteratorN" ∧
        (GeneratorSettings.default.runIndex .nested).wrapperFor? ⟨"Other::iterator *"⟩ = none := by
  have hvalid : Declarations.nested.validate = .ok () := rfl
  have hnames : Declarations.nested.HasUnqualifiedNames := by decide +kernel
  obtain ⟨result, h, hresolve, -, hfind⟩ := @index_resolves_emitted .default _ hvalid hnames
  obtain ⟨-, rfl⟩ := GeneratorSettings.generate_eq_ok_iff.mp h
  let emitted := (GeneratorSettings.default.assemble .nested).emitted .nested
  have hiterator : ∃ c ∈ emitted, c.name = "iterator" ∧ c.qualifiedName = "ParsedJson::iterator" ∧
      (c.qualifiedName, "ParsedJsonIteratorN") ∈
        (GeneratorSettings.default.assemble .nested).report.wrappers := by
    decide +kernel
  have hother : ∀ c ∈ emitted, ¬ c.IsNamed (NativeType.baseName ⟨"Other::iterator *"⟩) := by
    decide +kernel
  obtain ⟨c, hc, hname, hqualified, hrecord⟩ := hiterator
  obtain ⟨wrapper, hrecords, hbare, hpath⟩ := hfind c hc
  obtain rfl := (hrecords _).mp hrecord
  rw [hname] at hbare
  rw [hqualified] at hpath hrecord
  refine ⟨hvalid, hnames, _, h, hrecord, hbare, hpath, ?_⟩
  rw [Option.eq_none_iff_forall_ne_some]
  intro wrapper hwrapper
  obtain ⟨d, hd, hnamed, -⟩ := (hresolve _ wrapper).mp hwrapper
  exact hother d hd hnamed

end NativeBindings
