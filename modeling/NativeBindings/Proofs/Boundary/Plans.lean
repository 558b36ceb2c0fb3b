import NativeBindings.Binding.Document
import NativeBindings.Policy.Admission
import Mathlib.Data.List.Basic

/-!
# Plans for parameters and results

Every way in which a parameter or a result can be planned to cross the boundary, with what its
native type has to be like. All that is said of plans follows by going through these ways. What is
decided and emitted for a function depends on the index only through what it finds for the types in
the signature.
-/

namespace NativeBindings

open Text

theorem isNativeInt_iff {host : String} : isNativeInt host = true ↔ host = "nint" := beq_iff_eq

namespace BindingRules

variable {rules : BindingRules}

/-- The plans for a parameter of a native type, under the name it has in C#. -/
inductive Plans (rules : BindingRules) (type : NativeType) (name : String) : ParameterPlan → Prop
    where
  | handle {wrapper : String} (hw : rules.index.wrapperFor? type = some wrapper) :
    Plans rules type name ⟨⟨"void*", name, none⟩, ⟨wrapper, name⟩, name ++ ".Handle"⟩
  | boolReference (hw : rules.index.isWrapped type = false) (hr : type.isReference = true)
      (hh : rules.aliases.hostType type = "bool") :
    Plans rules type name
      ⟨⟨"ref bool", name, some boolMarshal⟩, ⟨"ref bool", name⟩, "ref " ++ name⟩
  | nativeIntReference (hw : rules.index.isWrapped type = false) (hr : type.isReference = true)
      (hh : rules.aliases.hostType type = "nint") :
    Plans rules type name ⟨⟨"ref IntPtr", name, none⟩, ⟨"ref IntPtr", name⟩, "ref " ++ name⟩
  | reference {host : String} (hw : rules.index.isWrapped type = false)
      (hr : type.isReference = true) (hh : rules.aliases.hostType type = host)
      (hb : host ≠ "bool") :
    Plans rules type name ⟨⟨"ref " ++ host, name, none⟩, ⟨"ref " ++ host, name⟩, "ref " ++ name⟩
  | bool (hw : rules.index.isWrapped type = false) (hr : type.isReference = false)
      (hh : rules.aliases.hostType type = "bool") :
    Plans rules type name ⟨⟨"bool", name, some boolMarshal⟩, ⟨"bool", name⟩, name⟩
  | nativeInt (hw : rules.index.isWrapped type = false) (hr : type.isReference = false)
      (hh : rules.aliases.hostType type = "nint") :
    Plans rules type name ⟨⟨"IntPtr", name, none⟩, ⟨"long", name⟩, "(IntPtr)" ++ name⟩
  | value {host : String} (hw : rules.index.isWrapped type = false)
      (hr : type.isReference = false) (hh : rules.aliases.hostType type = host)
      (hb : host ≠ "bool") :
    Plans rules type name ⟨⟨host, name, none⟩, ⟨host, name⟩, name⟩

theorem plans_planParameter (rules : BindingRules) (param : Parameter) (position : Nat) :
    rules.Plans param.type (hostIdentifier (parameterName param.name position))
      (rules.planParameter param position) := by
  rw [planParameter]
  cases hw : rules.index.wrapperFor? param.type with
  | some wrapper => exact .handle hw
  | none =>
    have hunwrapped : rules.index.isWrapped param.type = false := by
      rw [WrapperIndex.isWrapped, hw]
      rfl
    generalize hh : rules.aliases.hostType param.type = host
    cases hr : param.type.isReference with
    | true =>
      simp only [if_true, ParameterPlan.ofReference, isNativeInt_iff]
      by_cases hb : host = "bool"
      · rw [if_pos hb]
        exact .boolReference hunwrapped hr (hh.trans hb)
      · rw [if_neg hb]
        by_cases hn : host = "nint"
        · rw [if_pos hn]
          exact .nativeIntReference hunwrapped hr (hh.trans hn)
        · rw [if_neg hn]
          exact .reference hunwrapped hr hh hb
    | false =>
      simp only [Bool.false_eq_true, if_false, ParameterPlan.ofValue, isNativeInt_iff]
      by_cases hb : host = "bool"
      · rw [if_pos hb]
        exact .bool hunwrapped hr (hh.trans hb)
      · rw [if_neg hb]
        by_cases hn : host = "nint"
        · rw [if_pos hn]
          exact .nativeInt hunwrapped hr (hh.trans hn)
        · rw [if_neg hn]
          exact .value hunwrapped hr hh hb

inductive PlansResult (rules : BindingRules) (type : NativeType) : ResultPlan → Prop where
  | handle (hw : rules.index.isWrapped type = true) :
    PlansResult rules type ⟨"void*", "void*", .unchanged⟩
  | bool (hw : rules.index.isWrapped type = false) (hh : rules.aliases.hostType type = "bool") :
    PlansResult rules type ⟨"byte", "bool", .toBool⟩
  | nativeInt (hw : rules.index.isWrapped type = false)
      (hh : rules.aliases.hostType type = "nint") :
    PlansResult rules type ⟨"IntPtr", "long", .toLong⟩
  | value {host : String} (hw : rules.index.isWrapped type = false)
      (hh : rules.aliases.hostType type = host) (hb : host ≠ "bool") :
    PlansResult rules type ⟨host, host, .unchanged⟩

theorem plansResult_planResult (rules : BindingRules) (type : NativeType) :
    rules.PlansResult type (rules.planResult type) := by
  rw [planResult]
  cases hw : rules.index.isWrapped type with
  | true =>
    rw [if_pos rfl]
    exact .handle hw
  | false =>
    generalize hh : rules.aliases.hostType type = host
    simp only [Bool.false_eq_true, if_false, ResultPlan.ofValue, isNativeInt_iff]
    by_cases hb : host = "bool"
    · rw [if_pos hb]
      exact .bool hw (hh.trans hb)
    · rw [if_neg hb]
      by_cases hn : host = "nint"
      · rw [if_pos hn]
        exact .nativeInt hw (hh.trans hn)
      · rw [if_neg hn]
        exact .value hw hh hb

theorem getElem?_planParameters (rules : BindingRules) (function : MemberFunction) (i : Nat) :
    (rules.planParameters function)[i]? =
      function.params[i]?.map fun param => rules.planParameter param i :=
  List.getElem?_mapIdx

@[simp] theorem length_planParameters (rules : BindingRules) (function : MemberFunction) :
    (rules.planParameters function).length = function.params.length :=
  List.length_mapIdx

theorem exists_plans_of_mem_planParameters {function : MemberFunction} {plan : ParameterPlan}
    (h : plan ∈ rules.planParameters function) :
    ∃ (i : Nat) (param : Parameter), function.params[i]? = some param ∧
      rules.Plans param.type (hostIdentifier (parameterName param.name i)) plan := by
  obtain ⟨i, hi⟩ := List.getElem?_of_mem h
  rw [getElem?_planParameters] at hi
  obtain ⟨param, hp, rfl⟩ := Option.map_eq_some_iff.mp hi
  exact ⟨i, param, hp, rules.plans_planParameter param i⟩

theorem params_wrapFunction (rules : BindingRules) (c : ScopedClass) (function : MemberFunction)
    (exportName : String) :
    (rules.wrapFunction c function exportName).params =
      (rules.planParameters function).map (·.wrapper) := by
  simp only [wrapFunction]
  split <;> rfl

theorem args_wrapFunction (rules : BindingRules) (c : ScopedClass) (function : MemberFunction)
    (exportName : String) :
    (rules.wrapFunction c function exportName).args =
      (if function.isInstance then ["this.Handle"] else []) ++
        (rules.planParameters function).map (·.argument) := by
  simp only [wrapFunction]
  split <;> rfl

theorem target_wrapFunction (rules : BindingRules) (c : ScopedClass) (function : MemberFunction)
    (exportName : String) : (rules.wrapFunction c function exportName).target = exportName := by
  simp only [wrapFunction]
  split <;> rfl

end BindingRules

def MemberFunction.types (function : MemberFunction) : List NativeType :=
  function.returnType :: function.params.map (·.type)

theorem MemberFunction.type_mem_types {function : MemberFunction} {param : Parameter}
    (h : param ∈ function.params) : param.type ∈ function.types :=
  List.mem_cons_of_mem _ (List.mem_map_of_mem h)

/-- Both indices find the same for all of these types. -/
def WrapperIndex.AgreeOn (index index' : WrapperIndex) (types : List NativeType) : Prop :=
  ∀ type ∈ types, index.wrapperFor? type = index'.wrapperFor? type

variable {index index' : WrapperIndex} {function : MemberFunction}

theorem WrapperIndex.AgreeOn.isWrapped_eq {types : List NativeType} (h : index.AgreeOn index' types)
    {type : NativeType} (ht : type ∈ types) : index.isWrapped type = index'.isWrapped type := by
  rw [isWrapped, isWrapped, h type ht]

private theorem findSome?_congr {α β : Type} {f g : α → Option β} {xs : List α}
    (h : ∀ x ∈ xs, f x = g x) : xs.findSome? f = xs.findSome? g := by
  induction xs with
  | nil => rfl
  | cons x rest ih =>
    obtain ⟨hx, hrest⟩ := List.forall_mem_cons.mp h
    rw [List.findSome?_cons, List.findSome?_cons, hx, ih hrest]

theorem Admission.fault?_congr (denylist : Denylist) (h : index.AgreeOn index' function.types) :
    Admission.fault? ⟨denylist, index⟩ function = Admission.fault? ⟨denylist, index'⟩ function := by
  have hparams : ∀ param ∈ function.params,
      parameterFault? ⟨denylist, index⟩ param = parameterFault? ⟨denylist, index'⟩ param := by
    intro param hp
    have hunsupported : isUnsupportedParameter ⟨denylist, index⟩ param.type =
        isUnsupportedParameter ⟨denylist, index'⟩ param.type := by
      simp only [isUnsupportedParameter, h.isWrapped_eq (MemberFunction.type_mem_types hp)]
    unfold parameterFault?
    rw [hunsupported]
  have hreturn : returnFault? ⟨denylist, index⟩ function.returnType =
      returnFault? ⟨denylist, index'⟩ function.returnType := by
    have hunsupported : isUnsupportedReturn ⟨denylist, index⟩ function.returnType =
        isUnsupportedReturn ⟨denylist, index'⟩ function.returnType := by
      simp only [isUnsupportedReturn, h.isWrapped_eq List.mem_cons_self]
    unfold returnFault?
    rw [hunsupported]
  unfold fault?
  rw [findSome?_congr hparams, hreturn]

theorem WrapperIndex.glueFunction_congr (c : ScopedClass)
    (h : index.AgreeOn index' function.types) :
    index.glueFunction c function = index'.glueFunction c function := by
  have hparams : index.glueParameters function = index'.glueParameters function := by
    apply List.ext_getElem?
    intro i
    rw [glueParameters, glueParameters, List.getElem?_mapIdx, List.getElem?_mapIdx]
    apply Option.map_congr
    intro param hp
    have hwrapped := h.isWrapped_eq (MemberFunction.type_mem_types (List.mem_of_getElem? hp))
    simp only [glueParameter, hwrapped]
  simp only [glueFunction, hparams]

theorem BindingRules.bindFunction_congr (aliases : AliasTable) (naming : NamingPolicy)
    (c : ScopedClass) (exportName : String) (h : index.AgreeOn index' function.types) :
    bindFunction ⟨aliases, naming, index⟩ c function exportName =
      bindFunction ⟨aliases, naming, index'⟩ c function exportName := by
  have hparams : planParameters ⟨aliases, naming, index⟩ function =
      planParameters ⟨aliases, naming, index'⟩ function := by
    apply List.ext_getElem?
    intro i
    rw [planParameters, planParameters, List.getElem?_mapIdx, List.getElem?_mapIdx]
    apply Option.map_congr
    intro param hp
    have hfound := h param.type (MemberFunction.type_mem_types (List.mem_of_getElem? hp))
    simp only [planParameter, hfound]
  have hresult : planResult ⟨aliases, naming, index⟩ function.returnType =
      planResult ⟨aliases, naming, index'⟩ function.returnType := by
    have hwrapped : index.isWrapped function.returnType = index'.isWrapped function.returnType :=
      h.isWrapped_eq List.mem_cons_self
    simp only [planResult, hwrapped]
  simp only [bindFunction, importFunction, wrapFunction, wrapperName, hparams, hresult]

end NativeBindings
