import NativeBindings.Proofs.Boundary.Arguments
import NativeBindings.Proofs.Generation.Account
import NativeBindings.Proofs.Host.Levels
import NativeBindings.Proofs.Policy.Admission

/-!
# Indirection across the boundary

Export and import of a function agree on the levels of indirection of every parameter and of the
result, with one exception: admission stops counting at an inner `const`, so more than one level of
pointers to an object can pass as a handle.
-/

namespace NativeBindings

open Text

/-- An object behind more pointers than are counted: a level below the outermost is `const`. -/
def WrapperIndex.HidesLevel (index : WrapperIndex) (type : NativeType)
    (levels : List Bool) : Prop :=
  index.isWrapped type = true ∧ true ∈ levels.tail

namespace WrapperIndex

variable {index : WrapperIndex} {type : NativeType} {levels : List Bool}

theorem not_hidesLevel_of_unwrapped (hw : index.isWrapped type = false) :
    ¬ index.HidesLevel type levels := by
  rintro ⟨hwrapped, -⟩
  rw [hw] at hwrapped
  cases hwrapped

theorem not_takesObject_of_unwrapped (hw : index.isWrapped type = false) :
    ¬ index.TakesObject type := by
  rintro ⟨hwrapped, -⟩
  rw [hw] at hwrapped
  cases hwrapped

theorem length_eq_one_iff (hw : index.isWrapped type = true) (hc : countedLevels levels = 1) :
    levels.length = 1 ↔ ¬ index.HidesLevel type levels := by
  rw [HidesLevel, and_iff_right hw, ← countedLevels_eq_length_iff, hc]
  exact eq_comm

end WrapperIndex

section

variable {type : NativeType} {name : List Char} {levels : List Bool} {mark : ReferenceMark}

section

variable (index : WrapperIndex) {param : Parameter} (position : Nat) (hn : IsBareName name)
  (h : param.type.SpelledOver name levels mark)

include hn h

theorem WrapperIndex.nativeLevels_pointer (hp : mark ≠ .none ∨ index.TakesObject param.type) :
    nativeLevels (index.glueParameter param position).1.type = levels.length + 1 := by
  have hcount := h.count_star hn
  cases hlast : withoutLast? '&' (trimEnd param.type.spelling.toList) with
  | some referenced =>
    rw [← count_trimEnd isBlank_star, eq_append_of_withoutLast? hlast, List.count_append] at hcount
    rw [index.glueParameter_of_reference param position hlast]
    simpa [nativeLevels, count_trimEnd isBlank_star] using hcount
  | none =>
    have hnone : mark = .none := (h.withoutLast?_eq_none_iff hn).mp hlast
    have ho : index.TakesObject param.type := hp.resolve_left fun hne => hne hnone
    rw [index.glueParameter_of_object param position hlast ho]
    simp [nativeLevels, count_trimEnd isBlank_star, hcount]

theorem WrapperIndex.nativeLevels_value (hm : mark = .none)
    (ho : ¬ index.TakesObject param.type) :
    nativeLevels (index.glueParameter param position).1.type = levels.length := by
  have hlast := (h.withoutLast?_eq_none_iff hn).mpr hm
  rw [index.glueParameter_of_value param position hlast ho]
  simp [nativeLevels, count_trimEnd isBlank_star, h.count_star hn]

end

namespace BindingRules

variable {rules : BindingRules}

theorem Plans.hostLevels_of_wrapped {declared : String} {plan : ParameterPlan}
    (h : rules.Plans type declared plan) (hw : rules.index.isWrapped type = true) :
    hostLevels plan.imported.type = 1 := by
  cases h with
  | handle => exact (by decide : hostLevels "void*" = 1)
  | boolReference hu | nativeIntReference hu | reference hu | bool hu | nativeInt hu | value hu =>
    rw [hw] at hu
    cases hu

theorem Plans.hostLevels_of_unwrapped {declared : String} {plan : ParameterPlan}
    (h : rules.Plans type declared plan) (hw : rules.index.isWrapped type = false)
    (ha : rules.aliases.BetweenNames) (hn : IsTypeName name)
    (hs : type.SpelledOver name levels mark) :
    hostLevels plan.imported.type =
      if mark = .lvalue then levels.length + 1 else levels.length := by
  have hcount := AliasTable.count_hostType ha hn.toIsBareName hs
  have hlevels := AliasTable.hostLevels_hostType ha hn hs
  have hreference := hs.isReference_eq hn.toIsBareName
  cases h with
  | handle hh =>
    rw [WrapperIndex.isWrapped, hh] at hw
    cases hw
  | boolReference _ hr hh =>
    rw [hr] at hreference
    rw [if_pos (of_decide_eq_true hreference.symm), ← hcount, hh]
    change hostLevels "ref bool" = "bool".toList.count '*' + 1
    decide
  | nativeIntReference _ hr hh =>
    rw [hr] at hreference
    rw [if_pos (of_decide_eq_true hreference.symm), ← hcount, hh]
    change hostLevels "ref IntPtr" = "nint".toList.count '*' + 1
    decide
  | reference _ hr hh =>
    rw [hr] at hreference
    rw [if_pos (of_decide_eq_true hreference.symm), ← hcount, ← hh]
    exact hostLevels_reference _
  | bool _ hr hh =>
    rw [hr] at hreference
    rw [if_neg (of_decide_eq_false hreference.symm), ← hcount, hh]
    change hostLevels "bool" = "bool".toList.count '*'
    decide
  | nativeInt _ hr hh =>
    rw [hr] at hreference
    rw [if_neg (of_decide_eq_false hreference.symm), ← hcount, hh]
    change hostLevels "IntPtr" = "nint".toList.count '*'
    decide
  | value _ hr hh =>
    rw [hr] at hreference
    rw [if_neg (of_decide_eq_false hreference.symm), ← hlevels, ← hh]

theorem PlansResult.hostLevels_of_wrapped {plan : ResultPlan} (h : rules.PlansResult type plan)
    (hw : rules.index.isWrapped type = true) : hostLevels plan.imported = 1 := by
  cases h with
  | handle => exact (by decide : hostLevels "void*" = 1)
  | bool hu | nativeInt hu | value hu =>
    rw [hw] at hu
    cases hu

theorem PlansResult.hostLevels_of_unwrapped {plan : ResultPlan} (h : rules.PlansResult type plan)
    (hw : rules.index.isWrapped type = false) (ha : rules.aliases.BetweenNames)
    (hn : IsTypeName name) (hs : type.SpelledOver name levels mark) :
    hostLevels plan.imported = levels.length := by
  have hcount := AliasTable.count_hostType ha hn.toIsBareName hs
  have hlevels := AliasTable.hostLevels_hostType ha hn hs
  cases h with
  | handle hh =>
    rw [hh] at hw
    cases hw
  | bool _ hh | nativeInt _ hh =>
    rw [hh] at hcount
    rw [← hcount]
    decide
  | value _ hh => rw [← hlevels, ← hh]

end BindingRules

end

section

variable {rules : BindingRules} {type : NativeType} {name : List Char} {levels : List Bool}
  {mark : ReferenceMark}

theorem Admission.countedLevels_of_parameter {admission : Admission}
    (h : admission.isUnsupportedParameter type = false) (hn : IsBareName name)
    (hs : type.SpelledOver name levels mark) :
    mark ≠ .rvalue ∧ (mark = .lvalue → levels = []) ∧
      (admission.index.isWrapped type = true → countedLevels levels ≤ 1) := by
  have hrvalue := hs.isRvalueReference_eq hn
  have hlvalue := hs.isReference_eq hn
  simp only [isUnsupportedParameter, Bool.or_eq_false_iff] at h
  obtain ⟨⟨hr, hw⟩, hl⟩ := h
  have hmark : mark ≠ .rvalue := of_decide_eq_false (hrvalue.symm.trans hr)
  rw [hs.pointerDepth_eq hn hmark] at hw hl
  refine ⟨hmark, ?_, ?_⟩
  · intro hm
    rw [hlvalue, decide_eq_true hm, Bool.true_and, decide_eq_false_iff_not] at hl
    exact countedLevels_eq_zero_iff.mp (by omega)
  · intro hwrapped
    rw [hwrapped, Bool.true_and, decide_eq_false_iff_not] at hw
    omega

theorem Admission.countedLevels_of_return {admission : Admission}
    (h : admission.isUnsupportedReturn type = false) (hn : IsBareName name)
    (hs : type.SpelledOver name levels mark) :
    mark = .none ∧ (admission.index.isWrapped type = true → countedLevels levels = 1) := by
  have hrvalue := hs.isRvalueReference_eq hn
  have hlvalue := hs.isReference_eq hn
  simp only [isUnsupportedReturn, Bool.or_eq_false_iff] at h
  obtain ⟨⟨hl, hr⟩, hw⟩ := h
  have hmark : mark = .none := by
    cases mark with
    | none => rfl
    | lvalue => simp [hlvalue] at hl
    | rvalue => simp [hrvalue] at hr
  refine ⟨hmark, ?_⟩
  intro hwrapped
  rw [hs.pointerDepth_eq hn (by simp [hmark]), hwrapped, Bool.true_and] at hw
  simpa using hw

/-- An admitted parameter has the same levels on both sides unless it is an object with a hidden
level. -/
theorem parameter_levels_iff {admission : Admission} (hi : admission.index = rules.index)
    (ha : rules.aliases.BetweenNames) {param : Parameter} (position : Nat) (hn : IsTypeName name)
    (hs : param.type.SpelledOver name levels mark)
    (h : admission.isUnsupportedParameter param.type = false) :
    nativeLevels (rules.index.glueParameter param position).1.type =
        hostLevels (rules.planParameter param position).imported.type ↔
      ¬ rules.index.HidesLevel param.type levels := by
  obtain ⟨hmark, hlvalue, hwrapped⟩ := Admission.countedLevels_of_parameter h hn.toIsBareName hs
  have hplans := rules.plans_planParameter param position
  rw [hi] at hwrapped
  cases hw : rules.index.isWrapped param.type with
  | false =>
    have hvalue := WrapperIndex.not_takesObject_of_unwrapped hw
    rw [hplans.hostLevels_of_unwrapped hw ha hn hs,
      iff_true_right (WrapperIndex.not_hidesLevel_of_unwrapped hw)]
    cases mark with
    | none =>
      rw [if_neg (by simp), rules.index.nativeLevels_value position hn.toIsBareName hs rfl hvalue]
    | lvalue =>
      rw [if_pos rfl,
        rules.index.nativeLevels_pointer position hn.toIsBareName hs (.inl (by simp))]
    | rvalue => exact absurd rfl hmark
  | true =>
    have hdepth := hs.pointerDepth_eq hn.toIsBareName hmark
    rw [hplans.hostLevels_of_wrapped hw]
    by_cases hlevels : levels = []
    · -- The export takes a pointer to the object, and that is the handle.
      subst hlevels
      have ho : rules.index.TakesObject param.type := ⟨hw, hdepth⟩
      rw [rules.index.nativeLevels_pointer position hn.toIsBareName hs (.inr ho)]
      simp [WrapperIndex.HidesLevel]
    · have hnone : mark = .none := by
        cases mark with
        | none => rfl
        | lvalue => exact absurd (hlvalue rfl) hlevels
        | rvalue => exact absurd rfl hmark
      have hpositive : countedLevels levels ≠ 0 := fun hzero =>
        hlevels (countedLevels_eq_zero_iff.mp hzero)
      have hone : countedLevels levels = 1 := by
        have hle := hwrapped hw
        omega
      have ho : ¬ rules.index.TakesObject param.type := fun ho => hpositive (hdepth.symm.trans ho.2)
      rw [rules.index.nativeLevels_value position hn.toIsBareName hs hnone ho,
        WrapperIndex.length_eq_one_iff hw hone]

theorem result_levels_iff {admission : Admission} (hi : admission.index = rules.index)
    (ha : rules.aliases.BetweenNames) (hn : IsTypeName name)
    (hs : type.SpelledOver name levels mark) (h : admission.isUnsupportedReturn type = false) :
    nativeLevels type.spelling = hostLevels (rules.planResult type).imported ↔
      ¬ rules.index.HidesLevel type levels := by
  obtain ⟨-, hwrapped⟩ := Admission.countedLevels_of_return h hn.toIsBareName hs
  have hplans := rules.plansResult_planResult type
  rw [hi] at hwrapped
  rw [nativeLevels, hs.count_star hn.toIsBareName]
  cases hw : rules.index.isWrapped type with
  | false =>
    rw [hplans.hostLevels_of_unwrapped hw ha hn hs,
      iff_true_right (WrapperIndex.not_hidesLevel_of_unwrapped hw)]
  | true =>
    rw [hplans.hostLevels_of_wrapped hw, WrapperIndex.length_eq_one_iff hw (hwrapped hw)]

end

/-- Export and import of a function agree on levels, but for objects with hidden levels. -/
structure AgreesOnLevels (index : WrapperIndex) (function : MemberFunction) (glue : GlueFunction)
    (imported : ImportDeclaration) : Prop where
  params : ∀ (i : Nat) (param : Parameter), function.params[i]? = some param →
    ∃ p q, glue.params[function.handles + i]? = some p ∧
      imported.params[function.handles + i]? = some q ∧
      ∀ name levels mark, IsTypeName name → param.type.SpelledOver name levels mark →
        (nativeLevels p.type = hostLevels q.type ↔ ¬ index.HidesLevel param.type levels)
  result : function.isConstructor = false → ∀ name levels mark, IsTypeName name →
    function.returnType.SpelledOver name levels mark →
      (nativeLevels glue.returnType = hostLevels imported.returnType ↔
        ¬ index.HidesLevel function.returnType levels)

theorem agreesOnLevels_of_admitted {rules : BindingRules} {admission : Admission}
    (hi : admission.index = rules.index) (ha : rules.aliases.BetweenNames)
    {function : MemberFunction} (h : admission.fault? function = none) (c : ScopedClass)
    (exportName : String) :
    AgreesOnLevels rules.index function (rules.index.glueFunction c function)
      (rules.importFunction function exportName) := by
  obtain ⟨-, hparams, hreturn⟩ := Admission.fault?_eq_none_iff.mp h
  constructor
  · intro i param hparam
    refine ⟨(rules.index.glueParameter param i).1, (rules.planParameter param i).imported, ?_, ?_,
      ?_⟩
    · rw [WrapperIndex.glueFunction, getElem?_handles_append, List.getElem?_map,
        WrapperIndex.getElem?_glueParameters, hparam]
      rfl
    · rw [BindingRules.importFunction, getElem?_handles_append, List.getElem?_map,
        BindingRules.getElem?_planParameters, hparam]
      rfl
    · intro name levels mark hn hs
      have hadmitted := hparams param (List.mem_of_getElem? hparam)
      exact parameter_levels_iff hi ha i hn hs
        (Admission.parameterFault?_eq_none_iff.mp hadmitted).2
  · intro hc name levels mark hn hs
    have hadmitted := (Admission.returnFault?_eq_none_iff.mp (hreturn hc)).2
    have hconstructor : ¬ function.isConstructor = true := by simp [hc]
    rw [WrapperIndex.glueFunction, BindingRules.importFunction]
    simp only [if_neg hconstructor]
    exact result_levels_iff hi ha hn hs hadmitted

/-- For every function that a run exports, and every C++ spelling over a name of its parameter types
and its result, export and import agree on the levels of indirection exactly if no level of pointers
to an object is hidden behind an inner `const`. -/
theorem exported_levels_agree_iff {settings : GeneratorSettings} {tree : Declarations}
    {result : Generated} (h : settings.generate tree = .ok result)
    (ha : settings.aliases.BetweenNames) :
    ∃ account : RunAccount settings tree result,
      ∀ a ∈ account.selected, ∀ x ∈ a.exported,
        AgreesOnLevels account.rules.binding.index x.function
          (account.rules.binding.index.glueFunction x.owner x.function)
          (account.rules.binding.importFunction x.function x.exportName) := by
  obtain ⟨-, rfl⟩ := GeneratorSettings.generate_eq_ok_iff.mp h
  refine ⟨settings.runAccount tree, ?_⟩
  intro a hsel x hx
  have hadmitted := GeneratorSettings.fault?_of_mem_exported hsel hx
  rw [GeneratorSettings.rules_runAccount]
  exact agreesOnLevels_of_admitted rfl ha hadmitted x.owner x.exportName

def Declarations.pointing : Declarations :=
  let fill := (MemberFunction.method "fill" .void).addParameter ⟨"rows", ⟨"uint32_t *const *"⟩⟩
  let collect := (MemberFunction.method "collect" .void).addParameter ⟨"all", ⟨"Thing *const *"⟩⟩
  ⟨none, [(NativeClass.ofName "Thing").addFunction fill |>.addFunction collect]⟩

theorem GeneratorSettings.generate_pointing :
    GeneratorSettings.default.generate .pointing =
      .ok (GeneratorSettings.default.assemble .pointing) :=
  generate_eq_ok_iff.mpr ⟨rfl, rfl⟩

theorem NativeType.spelledOver_constInner (name : String) :
    (⟨name ++ " *const *"⟩ : NativeType).SpelledOver name.toList [false, true] .none := by
  have hname : PointerSpelling name.toList [] name.toList := .name (.plain AreBlanks.nil)
  have hpointers := (hname.constStar .space AreBlanks.nil).star .space
  refine ⟨_, [], [], hpointers, AreBlanks.nil, AreBlanks.nil, ?_⟩
  rw [String.toList_append]
  simp [ReferenceMark.text]

theorem AliasTable.betweenNames_default : GeneratorSettings.default.aliases.BetweenNames := by
  unfold BetweenNames
  decide

theorem exported_levels_agree_pointing :
    ∃ result, GeneratorSettings.default.generate .pointing = .ok result ∧
      ∃ account : RunAccount .default .pointing result,
        (∃ a ∈ account.selected, ∃ x ∈ a.exported, x.exportName = "Thing_fill") ∧
        ∀ a ∈ account.selected, ∀ x ∈ a.exported,
          AgreesOnLevels account.rules.binding.index x.function
            (account.rules.binding.index.glueFunction x.owner x.function)
            (account.rules.binding.importFunction x.function x.exportName) := by
  have hexported : ∃ c ∈ (GeneratorSettings.default.assemble .pointing).glue.classes,
      ∃ f ∈ c.functions, f.exportName = "Thing_fill" := by
    decide +kernel
  obtain ⟨account, hagrees⟩ :=
    exported_levels_agree_iff GeneratorSettings.generate_pointing AliasTable.betweenNames_default
  rw [account.glue] at hexported
  obtain ⟨_, hc, f, hf, hname⟩ := hexported
  obtain ⟨a, ha, rfl⟩ := List.mem_map.mp hc
  obtain ⟨x, hx, rfl⟩ := List.mem_map.mp hf
  exact ⟨_, GeneratorSettings.generate_pointing, account, ⟨a, ha, x, hx, hname⟩, hagrees⟩

/-- A pointer to a `const` pointer to an object has two levels, and its import one. -/
theorem hidden_level_exported :
    ∃ result, GeneratorSettings.default.generate .pointing = .ok result ∧
      GeneratorSettings.default.aliases.BetweenNames ∧ IsTypeName "Thing".toList ∧
      (⟨"Thing" ++ " *const *"⟩ : NativeType).SpelledOver "Thing".toList [false, true] .none ∧
      (∃ c ∈ result.glue.classes, ∃ f ∈ c.functions, f.exportName = "Thing_collect" ∧
        ∃ p ∈ f.params, p = ⟨"Thing" ++ " *const *", "all"⟩ ∧ nativeLevels p.type = 2) ∧
      ∃ c ∈ result.bindings.classes, ∃ m ∈ c.members, m.importDecl.exportName = "Thing_collect" ∧
        ∃ p ∈ m.importDecl.params, p.name = "all" ∧ hostLevels p.type = 1 :=
  ⟨_, GeneratorSettings.generate_pointing, AliasTable.betweenNames_default,
    ⟨⟨by decide, NativeType.noMark_of_all (by decide), by decide⟩, by decide⟩,
    NativeType.spelledOver_constInner "Thing", by decide +kernel, by decide +kernel⟩

end NativeBindings
