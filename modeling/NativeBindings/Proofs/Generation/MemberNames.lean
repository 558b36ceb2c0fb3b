import NativeBindings.Proofs.Boundary.Typing
import NativeBindings.Proofs.Naming.MemberName

/-!
# Names of wrapper members

Exports keep functions of one class apart, since no two have one export name. Wrapper members have
other names, and nothing keeps these apart: members of one class can clash with each other, and with
what every wrapper class has.
-/

namespace NativeBindings

namespace WrapperMember

def paramTypes (m : WrapperMember) : List String := m.params.map (·.type)

/-- Two members have one name, and overloading does not tell them apart. -/
def Clashes (m n : WrapperMember) : Prop :=
  m.name = n.name ∧ (m.kind = .property ∨ n.kind = .property ∨ m.paramTypes = n.paramTypes)

/-- A member that is no constructor is named like its class or like something every wrapper class
has. -/
def Hides (m : WrapperMember) (wrapperName : String) : Prop :=
  m.kind ≠ .constructor ∧ (m.name = wrapperName ∨ m.name = "Handle" ∨ m.name = "disposeSync" ∨
    m.name = "Dispose" ∧ m.params = [])

instance (m n : WrapperMember) : Decidable (m.Clashes n) :=
  inferInstanceAs (Decidable (_ ∧ _))

instance (m : WrapperMember) (wrapperName : String) : Decidable (m.Hides wrapperName) :=
  inferInstanceAs (Decidable (_ ∧ _))

end WrapperMember

/-- The members of a wrapper class can stand beside each other and beside what every wrapper class
has. -/
@[mk_iff]
structure BindingClass.HasClearMembers (c : BindingClass) : Prop where
  apart : (c.members.map (·.wrapper)).Pairwise fun m n => ¬ m.Clashes n
  beside : ∀ m ∈ c.members, ¬ m.wrapper.Hides c.wrapperName

instance (c : BindingClass) : Decidable c.HasClearMembers :=
  decidable_of_iff _ (BindingClass.hasClearMembers_iff c).symm

namespace BindingRules

def wrapperTypes (rules : BindingRules) (function : MemberFunction) : List String :=
  (rules.planParameters function).map (·.wrapper.type)

/-- Two exported functions of a class have members that clash. -/
@[mk_iff]
inductive MembersClash (rules : BindingRules) (f g : MemberFunction) : Prop where
  | constructors (hf : f.isConstructor = true) (hg : g.isConstructor = true)
    (htypes : rules.wrapperTypes f = rules.wrapperTypes g)
  | members (hf : f.isConstructor = false) (hg : g.isConstructor = false) (hname : f.SharesName g)
    (h : rules.naming.isProperty f = true ∨ rules.naming.isProperty g = true ∨
      rules.wrapperTypes f = rules.wrapperTypes g)

/-- The member of a function hides its class or something that every wrapper class has. -/
@[mk_iff]
inductive HidesFixed (rules : BindingRules) (c : ScopedClass) (f : MemberFunction) : Prop where
  | wrapper (hf : f.isConstructor = false)
    (h : rules.naming.memberName f.name f.isStatic = rules.wrapperName c)
  | handle (hf : f.isConstructor = false) (h : pascalCase f.name = "Handle")
  | dispose (hf : f.isConstructor = false) (h : pascalCase f.name = "Dispose")
    (hparams : f.params = [])

section

variable (rules : BindingRules) (c : ScopedClass) (f g : MemberFunction) (exportName : String)

theorem name_wrapFunction_constructor (h : f.isConstructor = true) :
    (rules.wrapFunction c f exportName).name = rules.wrapperName c := by
  rw [wrapFunction, if_pos h]

theorem name_wrapFunction (h : f.isConstructor = false) :
    (rules.wrapFunction c f exportName).name = rules.naming.memberName f.name f.isStatic := by
  rw [wrapFunction, if_neg (ne_true_of_eq_false h)]

theorem kind_wrapFunction_property_iff :
    (rules.wrapFunction c f exportName).kind = .property ↔ rules.naming.isProperty f = true := by
  unfold wrapFunction
  cases hf : f.isConstructor with
  | true => simp [NamingPolicy.isProperty, hf]
  | false => cases rules.naming.isProperty f <;> simp

theorem paramTypes_wrapFunction :
    (rules.wrapFunction c f exportName).paramTypes = rules.wrapperTypes f := by
  rw [WrapperMember.paramTypes, params_wrapFunction, List.map_map, wrapperTypes]
  rfl

theorem params_wrapFunction_eq_nil_iff :
    (rules.wrapFunction c f exportName).params = [] ↔ f.params = [] := by
  rw [params_wrapFunction, List.map_eq_nil_iff, ← List.length_eq_zero_iff, length_planParameters,
    List.length_eq_zero_iff]

end

theorem exportName_ne {c : ScopedClass} {f g : MemberFunction} (hf : f.isConstructor = false)
    (hg : g.isConstructor = false) (h : c.exportName f ≠ c.exportName g) :
    f.name ≠ g.name ∨ f.isStatic ≠ g.isStatic := by
  by_contra hsame
  rw [not_or, not_not, not_not] at hsame
  apply h
  rw [ScopedClass.exportName, ScopedClass.exportName, hf, hg, hsame.1, hsame.2]

section

open GeneratorSettings

variable {rules : BindingRules} {c : ScopedClass} {f g : MemberFunction}
  (exportName other : String)

theorem name_wrapFunction_ne (hf : f.isConstructor = true) (hg : g.isConstructor = false)
    (h : ¬ rules.HidesFixed c g) :
    (rules.wrapFunction c f exportName).name ≠ (rules.wrapFunction c g other).name := by
  rw [name_wrapFunction_constructor rules c f exportName hf, name_wrapFunction rules c g other hg]
  exact fun heq => h (.wrapper hg heq.symm)

variable (hnaming : rules.naming = default.naming)

include hnaming

theorem hides_wrapFunction_iff :
    (rules.wrapFunction c f exportName).Hides (rules.wrapperName c) ↔ rules.HidesFixed c f := by
  rw [WrapperMember.Hides, Ne, kind_wrapFunction_iff, params_wrapFunction_eq_nil_iff,
    hidesFixed_iff]
  cases hf : f.isConstructor with
  | true => simp
  | false =>
    have hhandle : default.naming.memberName f.name f.isStatic = "Handle" ↔
        pascalCase f.name = "Handle" :=
      memberName_default_eq_iff (by decide) (by decide) (by decide) (by decide)
    have hdispose : default.naming.memberName f.name f.isStatic = "Dispose" ↔
        pascalCase f.name = "Dispose" :=
      memberName_default_eq_iff (by decide) (by decide) (by decide) (by decide)
    -- Nobody's capital is a small letter, so this name is never taken.
    have hsync : default.naming.memberName f.name f.isStatic ≠ "disposeSync" := by
      intro heq
      have hhead := head_memberName_default f.name f.isStatic
      rw [heq] at hhead
      exact hhead 'd' rfl (by decide)
    rw [name_wrapFunction rules c f exportName hf, hnaming, hhandle, hdispose]
    simp [hsync]

/-- The members of two functions clash as their names and types say, unless one of them has the name
of the class. -/
theorem clashes_wrapFunction_iff (h : c.exportName f ≠ c.exportName g)
    (hf : ¬ rules.HidesFixed c f) (hg : ¬ rules.HidesFixed c g) :
    (rules.wrapFunction c f exportName).Clashes (rules.wrapFunction c g other) ↔
      rules.MembersClash f g := by
  rw [WrapperMember.Clashes, kind_wrapFunction_property_iff, kind_wrapFunction_property_iff,
    paramTypes_wrapFunction, paramTypes_wrapFunction, membersClash_iff]
  have hproperty : ∀ function : MemberFunction, function.isConstructor = true →
      rules.naming.isProperty function ≠ true := by
    intro function hfunction
    simp [NamingPolicy.isProperty, hfunction]
  cases hfc : f.isConstructor with
  | true =>
    cases hgc : g.isConstructor with
    | true =>
      rw [name_wrapFunction_constructor rules c f exportName hfc,
        name_wrapFunction_constructor rules c g other hgc]
      simp [hproperty f hfc, hproperty g hgc]
    | false => simp [name_wrapFunction_ne exportName other hfc hgc hg]
  | false =>
    cases hgc : g.isConstructor with
    | true => simp [(name_wrapFunction_ne other exportName hgc hfc hf).symm]
    | false =>
      have hshared := memberName_default_congr_iff (exportName_ne hfc hgc h)
      rw [name_wrapFunction rules c f exportName hfc, name_wrapFunction rules c g other hgc,
        hnaming, hshared]
      simp

end

end BindingRules

namespace GeneratorSettings

variable {settings : GeneratorSettings} {tree : Declarations} {a : ClassAccount}

theorem exportNames_exported_pairwise (ha : a ∈ settings.classAccounts tree) :
    a.exported.Pairwise fun x y => x.exportName ≠ y.exportName := by
  obtain ⟨taken, h⟩ := exists_account_of_mem_classAccounts ha
  rw [h]
  exact List.pairwise_map.mp ((settings.runRules tree).claims.names_of_granted_nodup taken _)

theorem beside_binding_iff (ha : a ∈ default.classAccounts tree) :
    (∀ m ∈ (a.binding (default.runRules tree)).members,
        ¬ m.wrapper.Hides (a.binding (default.runRules tree)).wrapperName) ↔
      ∀ x ∈ a.exported,
        ¬ (default.runRules tree).binding.HidesFixed a.owner x.function := by
  rw [ClassAccount.binding, List.forall_mem_map]
  apply forall₂_congr
  intro x hx
  rw [← ((default.runAccount tree).mem_members_of_mem_exported ha hx).1]
  exact not_congr (BindingRules.hides_wrapFunction_iff _ rfl)

theorem apart_binding_iff (ha : a ∈ default.classAccounts tree)
    (hbeside : ∀ x ∈ a.exported,
      ¬ (default.runRules tree).binding.HidesFixed a.owner x.function) :
    (((a.binding (default.runRules tree)).members.map (·.wrapper)).Pairwise
        fun m n => ¬ m.Clashes n) ↔
      a.exported.Pairwise fun x y =>
        ¬ (default.runRules tree).binding.MembersClash x.function y.function := by
  let rules := (default.runRules tree).binding
  let wrap : Candidate → WrapperMember := fun x =>
    rules.wrapFunction x.owner x.function x.exportName
  have hmembers : (a.binding (default.runRules tree)).members.map (·.wrapper) =
      a.exported.map wrap := by
    rw [ClassAccount.binding, List.map_map]
    rfl
  -- Both are functions of this class, so with different exports they are not declared alike.
  have hclash : ∀ x ∈ a.exported, ∀ y ∈ a.exported, x.exportName ≠ y.exportName →
      ((wrap x).Clashes (wrap y) ↔ rules.MembersClash x.function y.function) := by
    intro x hx y hy hne
    have hxowner := ((default.runAccount tree).mem_members_of_mem_exported ha hx).1
    have hyowner := ((default.runAccount tree).mem_members_of_mem_exported ha hy).1
    rw [Candidate.exportName, Candidate.exportName, hxowner, hyowner] at hne
    simp only [wrap, hxowner, hyowner]
    exact BindingRules.clashes_wrapFunction_iff _ _ rfl hne (hbeside x hx) (hbeside y hy)
  have hnames := exportNames_exported_pairwise ha
  rw [hmembers, List.pairwise_map]
  constructor
  · intro hapart
    refine (hapart.and hnames).imp_of_mem ?_
    rintro x y hx hy ⟨hno, hne⟩
    exact (hclash x hx y hy hne).not.mp hno
  · intro hapart
    refine (hapart.and hnames).imp_of_mem ?_
    rintro x y hx hy ⟨hno, hne⟩
    exact (hclash x hx y hy hne).not.mpr hno

end GeneratorSettings

/-- By default, each emitted class has one wrapper class. Its members can stand together unless
those of two exported functions clash or one hides what every wrapper class has. -/
theorem wrapper_members_clear_iff {tree : Declarations} {result : Generated}
    (h : GeneratorSettings.default.generate tree = .ok result) :
    let rules := GeneratorSettings.default.runRules tree
    result.bindings.classes = (GeneratorSettings.default.classAccounts tree).map (·.binding rules) ∧
      ∀ a ∈ GeneratorSettings.default.classAccounts tree,
        (a.binding rules).HasClearMembers ↔
          (a.exported.Pairwise fun x y => ¬ rules.binding.MembersClash x.function y.function) ∧
            ∀ x ∈ a.exported, ¬ rules.binding.HidesFixed a.owner x.function := by
  intro rules
  obtain ⟨-, rfl⟩ := GeneratorSettings.generate_eq_ok_iff.mp h
  refine ⟨GeneratorSettings.default.bindings_assemble tree, ?_⟩
  intro a ha
  rw [BindingClass.hasClearMembers_iff, GeneratorSettings.beside_binding_iff ha]
  exact and_congr_left (GeneratorSettings.apart_binding_iff ha)

def Declarations.navigating : Declarations :=
  let tag := (MemberFunction.method "is_object_or_array" ⟨"bool"⟩).addParameter
    ⟨"type", ⟨"uint8_t"⟩⟩
  let skip := (MemberFunction.method "skip" .void).addParameter ⟨"count", ⟨"int32_t"⟩⟩
  ⟨none, [(NativeClass.ofName "Cursor").addConstructor (.constructor "Cursor")
    |>.addFunction (.method "is_object_or_array" ⟨"bool"⟩)
    |>.addFunction { tag with isStatic := true }
    |>.addFunction (.method "get_type" ⟨"uint8_t"⟩)
    |>.addFunction (.method "skip" .void)
    |>.addFunction { skip with isStatic := true }]⟩

theorem wrapper_members_clear_iff_navigating :
    ∃ result, GeneratorSettings.default.generate .navigating = .ok result ∧
      (∃ c ∈ result.bindings.classes, c.members.map (·.wrapper.name) =
        ["Cursor", "IsObjectOrArray", "IsObjectOrArrayStatic", "GetTokenType", "Skip", "Skip"]) ∧
      ∀ a ∈ GeneratorSettings.default.classAccounts .navigating, a.exported.Pairwise fun x y =>
        ¬ (GeneratorSettings.default.runRules .navigating).binding.MembersClash x.function
          y.function := by
  have h : GeneratorSettings.default.generate .navigating =
      .ok (GeneratorSettings.default.assemble .navigating) :=
    GeneratorSettings.generate_eq_ok_iff.mpr ⟨rfl, rfl⟩
  have hclear : ∀ a ∈ GeneratorSettings.default.classAccounts .navigating,
      (a.binding (GeneratorSettings.default.runRules .navigating)).HasClearMembers := by
    decide +kernel
  obtain ⟨-, hiff⟩ := wrapper_members_clear_iff h
  exact ⟨_, h, by decide +kernel, fun a ha => ((hiff a ha).mp (hclear a ha)).1⟩

/-- A class with functions that come out under one name, and two whose names every wrapper class
has. -/
def Declarations.buffering : Declarations :=
  let fits := (MemberFunction.method "is_empty" ⟨"bool"⟩).addParameter ⟨"size", ⟨"int32_t"⟩⟩
  ⟨none, [(NativeClass.ofName "Buffer").addFunction (.method "dispose" .void)
    |>.addFunction (.method "handle" ⟨"int32_t"⟩)
    |>.addFunction (.method "read_all" .void)
    |>.addFunction (.method "readAll" .void)
    |>.addFunction (.method "is_empty" ⟨"bool"⟩)
    |>.addFunction { fits with isStatic := true }]⟩

/-- The wrapper class for a buffer has two members of one name and one list of parameter types, a
property and a method of one name, and members named like the handle and like disposal. -/
theorem members_clash :
    ∃ result, GeneratorSettings.default.generate .buffering = .ok result ∧
      ∃ c ∈ result.bindings.classes, ¬ c.HasClearMembers ∧
        (¬ (c.members.map (·.wrapper)).Pairwise fun m n =>
          m.name = n.name → m.paramTypes ≠ n.paramTypes) ∧
        (¬ (c.members.map (·.wrapper)).Pairwise fun m n => m.kind = .property → m.name ≠ n.name) ∧
        ("Handle", .method) ∈ c.members.map (fun m => (m.wrapper.name, m.wrapper.kind)) ∧
        ("Dispose", []) ∈ c.members.map (fun m => (m.wrapper.name, m.wrapper.params)) :=
  ⟨GeneratorSettings.default.assemble .buffering,
    GeneratorSettings.generate_eq_ok_iff.mpr ⟨rfl, rfl⟩, by decide +kernel⟩

end NativeBindings
