import NativeBindings.Proofs.Boundary.Typing
import NativeBindings.Proofs.Generation.Resolution
import NativeBindings.Proofs.Native.RoundTrip

/-!
# Constructors of emitted classes

Of the constructors that a class lists, the policy binds the first or none. It does not look at the
member functions, and one of these that is marked as a constructor makes objects as well.
-/

namespace NativeBindings

/-- The export makes an object. -/
def GlueFunction.constructs (function : GlueFunction) : Bool :=
  match function.call with
  | .construct _ => true
  | .callStatic _ _ | .callInstance _ | .delete => false

def GlueClass.constructing (c : GlueClass) : List GlueFunction :=
  c.functions.filter (·.constructs)

def BindingClass.constructing (c : BindingClass) : List BoundMember :=
  c.members.filter (·.wrapper.kind == .constructor)

/-- The policy as it shows in the exports or the members that are made of constructors. -/
def ConstructorPolicy.Admits {α : Type} (policy : ConstructorPolicy)
    (constructors : List MemberFunction) (make : MemberFunction → α) (made : List α) : Prop :=
  match policy with
  | firstDeclared => made.Sublist (constructors.head?.toList.map make)
  | noConstructor => made = []

theorem ConstructorPolicy.admits_of_sublist {α : Type} {policy : ConstructorPolicy}
    {constructors bound : List MemberFunction}
    (h : bound.Sublist (policy.bound? constructors).toList) (make : MemberFunction → α) :
    policy.Admits constructors make (bound.map make) := by
  cases policy with
  | firstDeclared => exact h.map make
  | noConstructor =>
    have hnil : bound = [] := List.sublist_nil.mp h
    rw [hnil]
    rfl

theorem ConstructorPolicy.Admits.length_le_one {α : Type} {policy : ConstructorPolicy}
    {constructors : List MemberFunction} {make : MemberFunction → α} {made : List α}
    (h : policy.Admits constructors make made) : made.length ≤ 1 := by
  cases policy with
  | firstDeclared =>
    have hlength := List.Sublist.length_le h
    rw [List.length_map] at hlength
    exact le_trans hlength Option.length_toList_le
  | noConstructor =>
    have hnil : made = [] := h
    rw [hnil]
    exact Nat.zero_le 1

theorem WrapperIndex.constructs_glueFunction (index : WrapperIndex) (c : ScopedClass)
    (function : MemberFunction) :
    (index.glueFunction c function).constructs = function.isConstructor := by
  unfold glueFunction GlueFunction.constructs
  cases function.isConstructor with
  | true => rfl
  | false => cases function.isStatic <;> rfl

namespace ClassAccount

variable (rules : GenerationRules) (a : ClassAccount)

theorem constructing_glue : (a.glue rules).constructing =
    (a.exported.filter (·.function.isConstructor)).map fun x =>
      rules.binding.index.glueFunction x.owner x.function := by
  rw [GlueClass.constructing, glue, List.filter_map]
  congr 1
  apply List.filter_congr
  intro x _
  exact rules.binding.index.constructs_glueFunction x.owner x.function

theorem constructing_binding : (a.binding rules).constructing =
    (a.exported.filter (·.function.isConstructor)).map fun x =>
      rules.binding.bindFunction x.owner x.function x.exportName := by
  rw [BindingClass.constructing, binding, List.filter_map]
  congr 1
  apply List.filter_congr
  intro x _
  rw [Bool.eq_iff_iff, Function.comp_apply, beq_iff_eq]
  exact BindingRules.kind_wrapFunction_iff _ _ _ _

end ClassAccount

/-- A class exports the constructor that the policy binds, or not, and then member functions. -/
theorem GenerationRules.exported_account (rules : GenerationRules) (taken : List String)
    (c : ScopedClass) : ∃ bound functions : List MemberFunction,
      (rules.account taken c).exported = (bound ++ functions).map (⟨c, ·⟩) ∧
        bound.Sublist (rules.constructors.bound? c.decl.constructors).toList ∧
        functions.Sublist c.decl.functions := by
  have hexported : (rules.account taken c).exported.Sublist ((rules.admitted c).map (⟨c, ·⟩)) :=
    rules.claims.granted_sublist taken (rules.candidates c)
  obtain ⟨admitted, hadmitted, hmap⟩ := List.sublist_map_iff.mp hexported
  obtain ⟨bound, functions, rfl, hbound, hfunctions⟩ := List.sublist_append_iff.mp hadmitted
  exact ⟨bound, functions, hmap, hbound, hfunctions⟩

/-- In the result for parsed declarations, a class makes objects by the constructor that the policy
binds, if it is exported, and after it by the exported member functions that are marked as
constructors. So the policy holds of the class if there are none of these. -/
theorem constructors_follow_policy {settings : GeneratorSettings} {text : String}
    {tree : Declarations} (parsed : Declarations.parse text = .ok tree) :
    ∃ result, settings.generate tree = .ok result ∧
      result.glue.classes = (settings.classAccounts tree).map (·.glue (settings.runRules tree)) ∧
      result.bindings.classes =
        (settings.classAccounts tree).map (·.binding (settings.runRules tree)) ∧
      ∀ a ∈ settings.classAccounts tree, ∃ bound marked : List MemberFunction,
        let constructors := a.owner.decl.constructors
        let glue := (settings.runIndex tree).glueFunction a.owner
        let bind := fun function => (settings.runRules tree).binding.bindFunction a.owner function
          (a.owner.exportName function)
        let exports := (a.glue (settings.runRules tree)).constructing
        let members := (a.binding (settings.runRules tree)).constructing
        bound.Sublist (settings.constructors.bound? constructors).toList ∧
          marked.Sublist (a.owner.decl.functions.filter (·.isConstructor)) ∧
          exports = (bound ++ marked).map glue ∧ members = (bound ++ marked).map bind ∧
          (marked = [] → settings.constructors.Admits constructors glue exports ∧
            settings.constructors.Admits constructors bind members) := by
  obtain ⟨hvalid, -⟩ := Declarations.parse_eq_ok parsed
  refine ⟨_, GeneratorSettings.generate_eq_ok_iff.mpr ⟨hvalid, rfl⟩, settings.glue_assemble tree,
    settings.bindings_assemble tree, ?_⟩
  intro a ha
  have hclass := (settings.runAccount tree).owner_mem_scopedClasses ha
  obtain ⟨taken, haccount⟩ := GeneratorSettings.exists_account_of_mem_classAccounts ha
  obtain ⟨bound, functions, hexported, hbound, hfunctions⟩ :=
    (settings.runRules tree).exported_account taken a.owner
  rw [← haccount] at hexported
  -- Whatever is bound is listed as a constructor, and so it is one.
  have hall : ∀ function ∈ bound, function.isConstructor = true := by
    intro function hf
    have hlisted := settings.constructors.bound_subset _ (hbound.subset hf)
    exact Declarations.isConstructor_of_parse parsed hclass hlisted
  have hmaking : a.exported.filter (·.function.isConstructor) =
      (bound ++ functions.filter (·.isConstructor)).map (⟨a.owner, ·⟩) := by
    rw [hexported, List.filter_map, List.filter_append]
    congr 2
    exact List.filter_eq_self.mpr hall
  have hexports := a.constructing_glue (settings.runRules tree)
  have hmembers := a.constructing_binding (settings.runRules tree)
  rw [hmaking, List.map_map] at hexports hmembers
  refine ⟨bound, functions.filter (·.isConstructor), hbound, hfunctions.filter _, hexports,
    hmembers, ?_⟩
  intro hnone
  rw [hnone, List.append_nil] at hexports hmembers
  constructor
  · rw [hexports]
    exact ConstructorPolicy.admits_of_sublist hbound _
  · rw [hmembers]
    exact ConstructorPolicy.admits_of_sublist hbound _

private theorem exists_ok_of_any {ε α : Type} {result : Except ε α} {check : α → Bool}
    (h : result.toOption.any check = true) : ∃ x, result = .ok x ∧ check x = true := by
  cases result with
  | error fault => cases h
  | ok x => exact ⟨x, rfl, h⟩

def overloadedText : String :=
  "\x7b\"classes\":[\x7b\"name\":\"Meter\",\"constructors\":[\x7b\"name\":\"Meter\"\x7d," ++
    "\x7b\"name\":\"Meter\",\"kind\":\"method\"\x7d]," ++
    "\"functions\":[\x7b\"name\":\"reset\"\x7d]\x7d]\x7d"

theorem constructors_follow_policy_overloaded :
    ∃ tree, Declarations.parse overloadedText = .ok tree ∧
      tree.scopedClasses.map (·.decl.constructors.length) = [2] ∧
      ∃ result, GeneratorSettings.default.generate tree = .ok result ∧
        result.report.exportNames = ["Meter_Meter", "Meter_reset", "Meter_Dispose"] ∧
        ∀ c ∈ result.glue.classes, c.constructing.length ≤ 1 := by
  have hread : (Declarations.parse overloadedText).toOption.any (fun tree =>
      decide (tree.scopedClasses.map (·.decl.constructors.length) = [2]) &&
        (decide (∀ c ∈ tree.scopedClasses, c.decl.functions.filter (·.isConstructor) = []) &&
          (GeneratorSettings.default.generate tree).toOption.any fun result =>
            result.report.exportNames = ["Meter_Meter", "Meter_reset", "Meter_Dispose"])) =
      true := by
    decide +kernel
  obtain ⟨tree, hparse, hchecks⟩ := exists_ok_of_any hread
  simp only [Bool.and_eq_true, decide_eq_true_eq] at hchecks
  obtain ⟨hlisted, hunmarked, hnames⟩ := hchecks
  obtain ⟨result, h, hglue, -, hall⟩ := @constructors_follow_policy .default _ tree hparse
  obtain ⟨_, h', hexports⟩ := exists_ok_of_any hnames
  obtain rfl : result = _ := Except.ok.inj (h.symm.trans h')
  refine ⟨tree, hparse, hlisted, result, h, of_decide_eq_true hexports, ?_⟩
  intro c hc
  rw [hglue] at hc
  obtain ⟨a, ha, rfl⟩ := List.mem_map.mp hc
  obtain ⟨bound, marked, -, hmarked, -, -, hpolicy⟩ := hall a ha
  have hclass := (GeneratorSettings.default.runAccount tree).owner_mem_scopedClasses ha
  rw [hunmarked a.owner hclass] at hmarked
  exact (hpolicy (List.sublist_nil.mp hmarked)).1.length_le_one

/-- A class with a member function that is marked as a constructor. -/
def markedText : String :=
  "\x7b\"classes\":[\x7b\"name\":\"A\",\"constructors\":[\x7b\"name\":\"A\"\x7d]," ++
    "\"functions\":[\x7b\"name\":\"make\",\"kind\":\"constructor\"\x7d]\x7d]\x7d"

/-- The marked function makes objects beside the constructor, and also if the policy is to bind no
constructor. -/
theorem marked_function_constructs :
    ∃ tree, Declarations.parse markedText = .ok tree ∧
      (∃ result, GeneratorSettings.default.generate tree = .ok result ∧
        result.glue.classes.map (·.constructing.map (·.exportName)) = [["A_A", "A_make"]] ∧
        result.bindings.classes.map (·.constructing.map (·.wrapper.target)) =
          [["A_A", "A_make"]]) ∧
      ∃ result, { GeneratorSettings.default with constructors := .noConstructor }.generate tree =
          .ok result ∧
        result.glue.classes.map (·.constructing.map (·.exportName)) = [["A_make"]] ∧
        result.bindings.classes.map (·.constructing.map (·.wrapper.target)) = [["A_make"]] := by
  let under (settings : GeneratorSettings) (names : List String) (tree : Declarations) : Bool :=
    (settings.generate tree).toOption.any fun result =>
      result.glue.classes.map (·.constructing.map (·.exportName)) = [names] ∧
        result.bindings.classes.map (·.constructing.map (·.wrapper.target)) = [names]
  have hruns : (Declarations.parse markedText).toOption.any (fun tree =>
      under .default ["A_A", "A_make"] tree &&
        under { GeneratorSettings.default with constructors := .noConstructor } ["A_make"] tree) =
          true := by
    decide +kernel
  obtain ⟨tree, hparse, hboth⟩ := exists_ok_of_any hruns
  obtain ⟨hfirst, hnone⟩ := Bool.and_eq_true_iff.mp hboth
  obtain ⟨result, hresult, hnames⟩ := exists_ok_of_any hfirst
  obtain ⟨result', hresult', hnames'⟩ := exists_ok_of_any hnone
  exact ⟨tree, hparse, ⟨result, hresult, of_decide_eq_true hnames⟩, result', hresult',
    of_decide_eq_true hnames'⟩

end NativeBindings
