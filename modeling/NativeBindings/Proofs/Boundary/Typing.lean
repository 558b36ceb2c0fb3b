import NativeBindings.Proofs.Boundary.Plans
import NativeBindings.Proofs.Generation.Account
import NativeBindings.Proofs.Tables

/-!
# Types across the boundary

The body of every wrapper member is well typed against the import that it calls, argument by
argument and in its result. Objects are handed over by handles of classes that the same run gives
wrappers to.
-/

namespace NativeBindings

/-- An expression made from a parameter of a wrapper member has a type at the boundary. -/
inductive WrapperParameter.Typed (wrappers : List String) (param : WrapperParameter) :
    String → String → Prop where
  | handle (h : param.type ∈ wrappers) : Typed wrappers param (param.name ++ ".Handle") "void*"
  | pointerSized (h : param.type = "long") :
    Typed wrappers param ("(IntPtr)" ++ param.name) "IntPtr"
  | reference {type : String} (h : param.type = "ref " ++ type) :
    Typed wrappers param ("ref " ++ param.name) param.type
  | plain : Typed wrappers param param.name param.type

/-- An argument has the type that the import takes, and truth values cross as single bytes. -/
structure ArgumentFits (wrappers : List String) (param : WrapperParameter) (argument : String)
    (imported : ImportParameter) : Prop where
  typed : param.Typed wrappers argument imported.type
  bool : imported.type = "bool" → imported.marshalAs = some boolMarshal
  boolReference : imported.type = "ref bool" → argument = "ref " ++ param.name →
    imported.marshalAs = some boolMarshal

inductive ArgumentsFit (wrappers : List String) :
    List WrapperParameter → List String → List ImportParameter → Prop where
  | nil : ArgumentsFit wrappers [] [] []
  | cons {param : WrapperParameter} {argument : String} {imported : ImportParameter}
      {params : List WrapperParameter} {args : List String} {imports : List ImportParameter}
      (head : ArgumentFits wrappers param argument imported)
      (tail : ArgumentsFit wrappers params args imports) :
    ArgumentsFit wrappers (param :: params) (argument :: args) (imported :: imports)

/-- What is done to a result of one type gives a result of the other. -/
inductive ResultConversion.Fits : ResultConversion → String → String → Prop where
  | unchanged (type : String) : Fits .unchanged type type
  | toBool : Fits .toBool "byte" "bool"
  | toLong : Fits .toLong "IntPtr" "long"

def WrapperMember.onInstance (m : WrapperMember) : Bool :=
  !m.isStatic && m.kind != .constructor

/-- The body of a member is well typed if exactly these classes have wrappers. -/
structure BoundMember.WellTyped (wrappers : List String) (m : BoundMember) : Prop where
  arguments : ∃ args imports,
    m.wrapper.args = (if m.wrapper.onInstance then ["this.Handle"] else []) ++ args ∧
    m.importDecl.params = (if m.wrapper.onInstance then [importHandle] else []) ++ imports ∧
    ArgumentsFit wrappers m.wrapper.params args imports
  /-- Without an object, the text of its handle can only be the name of a parameter. -/
  noReceiver : m.wrapper.onInstance = false → "this.Handle" ∈ m.wrapper.args →
    ∃ param ∈ m.wrapper.params, param.name = "this.Handle"
  construct : m.wrapper.kind = .constructor → m.importDecl.returnType = "void*"
  result : m.wrapper.kind ≠ .constructor → ∃ type, m.wrapper.returnType = some type ∧
    m.wrapper.conversion.Fits m.importDecl.returnType type
  noBool : m.importDecl.returnType ≠ "bool"

theorem hostIdentifier_ne_this (name : String) : hostIdentifier name ≠ "this" := by
  unfold hostIdentifier
  split
  · intro heq
    have hhead := congrArg (fun s : String => s.toList.head?) heq
    simp at hhead
  · rintro rfl
    rename_i hkeyword
    exact hkeyword (by decide)

namespace BindingRules

variable {rules : BindingRules} {wrappers : List String}

namespace Plans

variable {type : NativeType} {name : String} {plan : ParameterPlan}

theorem typed (h : rules.Plans type name plan)
    (hw : ∀ wrapper, rules.index.wrapperFor? type = some wrapper → wrapper ∈ wrappers) :
    plan.wrapper.Typed wrappers plan.argument plan.imported.type := by
  cases h with
  | handle h => exact .handle (hw _ h)
  | boolReference =>
    have htype : "ref bool" = "ref " ++ "bool" := by decide
    exact .reference htype
  | nativeIntReference =>
    have htype : "ref IntPtr" = "ref " ++ "IntPtr" := by decide
    exact .reference htype
  | reference => exact .reference rfl
  | nativeInt => exact .pointerSized rfl
  | bool | value => exact .plain

theorem marshalAs_of_bool (h : rules.Plans type name plan) (hb : plan.imported.type = "bool") :
    plan.imported.marshalAs = some boolMarshal := by
  cases h with
  | bool => rfl
  | boolReference => rfl
  | reference =>
    have hhead := congrArg (fun s : String => s.toList.head?) hb
    simp at hhead
  | value _ _ _ hne => exact absurd hb hne
  | handle | nativeIntReference | nativeInt => simp at hb

theorem marshalAs_of_boolReference (h : rules.Plans type name plan)
    (hb : plan.imported.type = "ref bool") (ha : plan.argument = "ref " ++ plan.wrapper.name) :
    plan.imported.marshalAs = some boolMarshal := by
  cases h with
  | bool => rfl
  | boolReference => rfl
  | reference _ _ _ hne =>
    have htype : "ref bool" = "ref " ++ "bool" := by decide
    exact absurd (String.append_right_inj _ |>.mp (hb.trans htype)) hne
  | value =>
    have hlength := congrArg String.length ha
    have href : "ref ".length = 4 := by decide
    rw [String.length_append, href] at hlength
    simp at hlength
  | handle | nativeIntReference | nativeInt => simp at hb

theorem name_of_argument (h : rules.Plans type (hostIdentifier name) plan)
    (ha : plan.argument = "this.Handle") : plan.wrapper.name = "this.Handle" := by
  cases h with
  | bool | value => exact ha
  | handle =>
    have hthis : "this.Handle" = "this" ++ ".Handle" := by decide
    exact absurd (String.append_left_inj _ |>.mp (ha.trans hthis)) (hostIdentifier_ne_this name)
  | boolReference | nativeIntReference | reference | nativeInt =>
    have hhead := congrArg (fun s : String => s.toList.head?) ha
    simp at hhead

theorem fits (h : rules.Plans type name plan)
    (hw : ∀ wrapper, rules.index.wrapperFor? type = some wrapper → wrapper ∈ wrappers) :
    ArgumentFits wrappers plan.wrapper plan.argument plan.imported :=
  ⟨h.typed hw, h.marshalAs_of_bool, h.marshalAs_of_boolReference⟩

end Plans

namespace PlansResult

variable {type : NativeType} {plan : ResultPlan}

theorem fits (h : rules.PlansResult type plan) :
    plan.conversion.Fits plan.imported plan.wrapper := by
  cases h with
  | handle => exact .unchanged _
  | bool => exact .toBool
  | nativeInt => exact .toLong
  | value => exact .unchanged _

theorem imported_ne_bool (h : rules.PlansResult type plan) : plan.imported ≠ "bool" := by
  cases h with
  | value _ _ hne => exact hne
  | handle | bool | nativeInt => simp

end PlansResult

theorem argumentsFit_of_forall {plans : List ParameterPlan}
    (h : ∀ plan ∈ plans, ArgumentFits wrappers plan.wrapper plan.argument plan.imported) :
    ArgumentsFit wrappers (plans.map (·.wrapper)) (plans.map (·.argument))
      (plans.map (·.imported)) := by
  induction plans with
  | nil => exact .nil
  | cons plan rest ih =>
    have hrest := ih fun plan hp => h plan (List.mem_cons_of_mem _ hp)
    exact .cons (h plan List.mem_cons_self) hrest

theorem onInstance_wrapFunction (rules : BindingRules) (c : ScopedClass)
    (function : MemberFunction) (exportName : String) :
    (rules.wrapFunction c function exportName).onInstance = function.isInstance := by
  unfold wrapFunction MemberFunction.isInstance
  cases function.isConstructor with
  | true => simp [WrapperMember.onInstance]
  | false =>
    cases rules.naming.isProperty function <;> simp [WrapperMember.onInstance]

theorem kind_wrapFunction_iff (rules : BindingRules) (c : ScopedClass)
    (function : MemberFunction) (exportName : String) :
    (rules.wrapFunction c function exportName).kind = .constructor ↔
      function.isConstructor = true := by
  unfold wrapFunction
  cases function.isConstructor with
  | true => simp
  | false => cases rules.naming.isProperty function <;> simp

/-- Every member is well typed if the index finds only classes that have wrappers. -/
theorem wellTyped_bindFunction
    (hindex : ∀ type wrapper, rules.index.wrapperFor? type = some wrapper → wrapper ∈ wrappers)
    (c : ScopedClass) (function : MemberFunction) (exportName : String) :
    (rules.bindFunction c function exportName).WellTyped wrappers where
  arguments := by
    refine ⟨(rules.planParameters function).map (·.argument),
      (rules.planParameters function).map (·.imported), ?_, ?_, ?_⟩
    · rw [bindFunction, onInstance_wrapFunction, args_wrapFunction]
    · rw [bindFunction, onInstance_wrapFunction, importFunction]
    · rw [bindFunction, params_wrapFunction]
      apply argumentsFit_of_forall
      intro plan hp
      obtain ⟨i, param, -, hplans⟩ := exists_plans_of_mem_planParameters hp
      exact hplans.fits (hindex param.type)
  noReceiver := by
    intro hinstance harg
    rw [bindFunction, onInstance_wrapFunction] at hinstance
    rw [bindFunction, args_wrapFunction, hinstance] at harg
    obtain ⟨plan, hp, ha⟩ := List.mem_map.mp harg
    obtain ⟨i, param, -, hplans⟩ := exists_plans_of_mem_planParameters hp
    refine ⟨plan.wrapper, ?_, hplans.name_of_argument ha⟩
    rw [bindFunction, params_wrapFunction]
    exact List.mem_map_of_mem hp
  construct := by
    intro hkind
    rw [bindFunction, kind_wrapFunction_iff] at hkind
    rw [bindFunction, importFunction, if_pos hkind]
    rfl
  result := by
    intro hkind
    rw [bindFunction, Ne, kind_wrapFunction_iff] at hkind
    refine ⟨(rules.planResult function.returnType).wrapper, ?_, ?_⟩
    · rw [bindFunction, wrapFunction, if_neg hkind]
    · rw [bindFunction, wrapFunction, if_neg hkind, importFunction, if_neg hkind]
      exact (rules.plansResult_planResult function.returnType).fits
  noBool := by
    rw [bindFunction, importFunction]
    by_cases hc : function.isConstructor = true
    · rw [if_pos hc]
      change handleType ≠ "bool"
      decide
    · rw [if_neg hc]
      exact (rules.plansResult_planResult function.returnType).imported_ne_bool

end BindingRules

namespace RunAccount

variable {settings : GeneratorSettings} {tree : Declarations} {result : Generated}
  (account : RunAccount settings tree result)

theorem wrapperNames :
    result.bindings.classes.map (·.wrapperName) =
      account.selected.map fun a => settings.aliases.hostName a.owner.name := by
  rw [account.bindings, List.map_map]
  rfl

theorem wrapper_mem {type : NativeType} {wrapper : String}
    (h : account.rules.binding.index.wrapperFor? type = some wrapper) :
    wrapper ∈ result.bindings.classes.map (·.wrapperName) := by
  obtain ⟨c, hc, -⟩ := WrapperIndex.exists_of_wrapperFor?_ofList h
  obtain ⟨d, hd, heq⟩ := List.mem_map.mp hc
  obtain ⟨a, ha, rfl⟩ := List.mem_map.mp hd
  cases heq
  rw [account.wrapperNames]
  exact List.mem_map_of_mem ha

end RunAccount

/-- In every run, the destructor's import returns no truth value and every member of every wrapper
class is well typed against its import. -/
theorem bindings_well_typed {settings : GeneratorSettings} {tree : Declarations}
    {result : Generated} (h : settings.generate tree = .ok result) :
    ∀ c ∈ result.bindings.classes, c.dispose.returnType ≠ "bool" ∧
      ∀ m ∈ c.members, m.WellTyped (result.bindings.classes.map (·.wrapperName)) := by
  obtain ⟨-, rfl⟩ := GeneratorSettings.generate_eq_ok_iff.mp h
  have account := settings.runAccount tree
  intro c hc
  rw [account.bindings] at hc
  obtain ⟨a, -, rfl⟩ := List.mem_map.mp hc
  constructor
  · change "void" ≠ "bool"
    decide
  · intro m hm
    obtain ⟨x, -, rfl⟩ := List.mem_map.mp hm
    exact BindingRules.wellTyped_bindFunction (fun _ _ hw => account.wrapper_mem hw) _ _ _

def Declarations.linking : Declarations :=
  let link := (MemberFunction.method "link" ⟨"bool"⟩).addParameter ⟨"next", ⟨"const Node &"⟩⟩
    |>.addParameter ⟨"done", ⟨"bool &"⟩⟩
    |>.addParameter ⟨"depth", ⟨"size_t"⟩⟩
  ⟨none, [(NativeClass.ofName "Node").addFunction link]⟩

theorem bindings_well_typed_linking :
    ∃ result, GeneratorSettings.default.generate .linking = .ok result ∧
      ∃ c ∈ result.bindings.classes, c.wrapperName = "Node" ∧ ∃ m ∈ c.members,
        m.wrapper.args = ["this.Handle", "next.Handle", "ref done", "(IntPtr)depth"] ∧
          m.WellTyped ["Node"] := by
  have h : GeneratorSettings.default.generate .linking =
      .ok (GeneratorSettings.default.assemble .linking) :=
    GeneratorSettings.generate_eq_ok_iff.mpr ⟨rfl, rfl⟩
  have hclasses : (GeneratorSettings.default.assemble .linking).bindings.classes.map
      (·.wrapperName) = ["Node"] := by
    decide +kernel
  have hmember : ∃ c ∈ (GeneratorSettings.default.assemble .linking).bindings.classes,
      c.wrapperName = "Node" ∧ ∃ m ∈ c.members,
        m.wrapper.args = ["this.Handle", "next.Handle", "ref done", "(IntPtr)depth"] := by
    decide +kernel
  obtain ⟨c, hc, hname, m, hm, hargs⟩ := hmember
  have htyped := (bindings_well_typed h c hc).2 m hm
  rw [hclasses] at htyped
  exact ⟨_, h, c, hc, hname, m, hm, hargs, htyped⟩

/-- Settings with an alias that is no plain type name in C#. -/
def GeneratorSettings.aliasedReference : GeneratorSettings :=
  default.addAlias "Flag" "ref bool"

def Declarations.aliased : Declarations :=
  let set := (MemberFunction.method "set" .void).addParameter ⟨"flag", ⟨"Flag"⟩⟩
    |>.addParameter ⟨"this.Handle", ⟨"int"⟩⟩
  ⟨none, [(NativeClass.ofName "Node").addFunction { set with isStatic := true }]⟩

/-- An alias brings a reference to a truth value across without marshalling, and a parameter's name
brings the text of a handle into a static member. -/
theorem aliased_reference_not_marshalled :
    ∃ result, GeneratorSettings.aliasedReference.generate .aliased = .ok result ∧
      ∃ c ∈ result.bindings.classes, ∃ m ∈ c.members,
        (∃ p ∈ m.importDecl.params, p.type = "ref bool" ∧ p.marshalAs = none) ∧
          m.wrapper.isStatic = true ∧ "this.Handle" ∈ m.wrapper.args :=
  ⟨GeneratorSettings.aliasedReference.assemble .aliased,
    GeneratorSettings.generate_eq_ok_iff.mpr ⟨rfl, rfl⟩, by decide +kernel⟩

end NativeBindings
