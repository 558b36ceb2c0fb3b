import NativeBindings.Proofs.Boundary.Plans

/-!
# Arguments across the boundary

Export, import and wrapper member of a function are planned apart from each other. They agree on the
argument list: position by position, the wrapper hands over what the import declares, the import
declares what the export takes, and the export passes on what the native function was declared with.
-/

namespace NativeBindings

open Text

theorem parameterName_ne_handleParameter (declared : String) (position : Nat) :
    parameterName declared position ≠ handleParameter := by
  simp only [parameterName]
  split
  · -- A numbered name starts with another letter.
    intro h
    have hhead := congrArg (fun s : String => s.toList.head?) h
    simp [handleParameter] at hhead
  · split
    · decide
    · assumption

theorem hostIdentifier_ne_handleParameter {name : String} (h : name ≠ handleParameter) :
    hostIdentifier name ≠ handleParameter := by
  unfold hostIdentifier
  split
  · intro heq
    have hhead := congrArg (fun s : String => s.toList.head?) heq
    simp [handleParameter] at hhead
  · exact h

theorem hostIdentifier_handleParameter : hostIdentifier handleParameter = handleParameter := by
  decide

/-- The argument is made from the parameter of a wrapper member. -/
inductive WrapperParameter.Passes (param : WrapperParameter) : String → Prop where
  | plain : Passes param param.name
  | handle : Passes param (param.name ++ ".Handle")
  | pointerSized : Passes param ("(IntPtr)" ++ param.name)
  | reference : Passes param ("ref " ++ param.name)

/-- The spelling without the blanks at its end, without one reference after that, and without the
blanks before the reference. -/
def NativeType.withoutReference (type : NativeType) : List Char :=
  let spelling := trimEnd type.spelling.toList
  ((withoutLast? '&' spelling).map trimEnd).getD spelling

/-- How an export takes a parameter of a native type and passes it on: as it is, or as a pointer
that the call follows. -/
inductive NativeType.ForwardedAs (type : NativeType) : GlueParameter → String → Prop where
  | unchanged (name : String) :
    ForwardedAs type ⟨String.ofList (trimEnd type.spelling.toList), name⟩ name
  | pointer (name : String) :
    ForwardedAs type ⟨String.ofList type.withoutReference ++ "*", name⟩ ("*" ++ name)

namespace WrapperIndex

variable (index : WrapperIndex) (param : Parameter) (position : Nat)

/-- What is passed by value at a pointer: an object of a wrapped class. -/
def TakesObject (type : NativeType) : Prop :=
  index.isWrapped type = true ∧ type.pointerDepth = 0

theorem glueParameter_of_reference {referenced : List Char}
    (h : withoutLast? '&' (trimEnd param.type.spelling.toList) = some referenced) :
    index.glueParameter param position =
      (⟨String.ofList (trimEnd referenced) ++ "*", parameterName param.name position⟩,
        "*" ++ parameterName param.name position) := by
  simp only [glueParameter, h]

theorem glueParameter_of_object
    (h : withoutLast? '&' (trimEnd param.type.spelling.toList) = none)
    (ho : index.TakesObject param.type) :
    index.glueParameter param position =
      (⟨String.ofList (trimEnd param.type.spelling.toList) ++ "*",
          parameterName param.name position⟩,
        "*" ++ parameterName param.name position) := by
  simp only [glueParameter, h, ho.1, ho.2, beq_self_eq_true, Bool.and_self, if_true]

theorem glueParameter_of_value
    (h : withoutLast? '&' (trimEnd param.type.spelling.toList) = none)
    (ho : ¬ index.TakesObject param.type) :
    index.glueParameter param position =
      (⟨String.ofList (trimEnd param.type.spelling.toList), parameterName param.name position⟩,
        parameterName param.name position) := by
  have hcond : ¬ (index.isWrapped param.type && param.type.pointerDepth == 0) = true := by
    simpa only [TakesObject, Bool.and_eq_true, beq_iff_eq] using ho
  simp only [glueParameter, h, if_neg hcond]

theorem glueParameter_cases :
    index.glueParameter param position =
        (⟨String.ofList param.type.withoutReference ++ "*", parameterName param.name position⟩,
          "*" ++ parameterName param.name position) ∨
      index.glueParameter param position =
        (⟨String.ofList (trimEnd param.type.spelling.toList), parameterName param.name position⟩,
          parameterName param.name position) := by
  cases h : withoutLast? '&' (trimEnd param.type.spelling.toList) with
  | some referenced =>
    have hreferenced : param.type.withoutReference = trimEnd referenced := by
      simp only [NativeType.withoutReference, h, Option.map_some, Option.getD_some]
    rw [hreferenced]
    exact .inl (index.glueParameter_of_reference param position h)
  | none =>
    have hspelled : param.type.withoutReference = trimEnd param.type.spelling.toList := by
      simp only [NativeType.withoutReference, h, Option.map_none, Option.getD_none]
    rw [hspelled]
    by_cases ho : index.TakesObject param.type
    · exact .inl (index.glueParameter_of_object param position h ho)
    · exact .inr (index.glueParameter_of_value param position h ho)

theorem name_glueParameter :
    (index.glueParameter param position).1.name = parameterName param.name position := by
  obtain h | h := index.glueParameter_cases param position <;> rw [h]

theorem forwardedAs_glueParameter :
    param.type.ForwardedAs (index.glueParameter param position).1
      (index.glueParameter param position).2 := by
  obtain h | h := index.glueParameter_cases param position
  · simp only [h]
    exact .pointer _
  · simp only [h]
    exact .unchanged _

theorem getElem?_glueParameters (function : MemberFunction) (i : Nat) :
    (index.glueParameters function)[i]? =
      function.params[i]?.map fun param => index.glueParameter param i :=
  List.getElem?_mapIdx

@[simp] theorem length_glueParameters (function : MemberFunction) :
    (index.glueParameters function).length = function.params.length :=
  List.length_mapIdx

end WrapperIndex

namespace BindingRules

variable {rules : BindingRules}

namespace Plans

variable {type : NativeType} {name : String} {plan : ParameterPlan}

theorem name_imported (h : rules.Plans type name plan) : plan.imported.name = name := by
  cases h <;> rfl

theorem passes (h : rules.Plans type name plan) : plan.wrapper.Passes plan.argument := by
  cases h with
  | handle => exact .handle
  | boolReference | nativeIntReference | reference => exact .reference
  | nativeInt => exact .pointerSized
  | bool | value => exact .plain

end Plans

/-- Imports and exports name the declared parameters alike, up to keywords of C#. -/
theorem names_planParameters (rules : BindingRules) (function : MemberFunction) :
    (rules.planParameters function).map (·.imported.name) =
      (rules.index.glueParameters function).map fun p => hostIdentifier p.1.name := by
  apply List.ext_getElem?
  intro i
  rw [List.getElem?_map, List.getElem?_map, getElem?_planParameters,
    WrapperIndex.getElem?_glueParameters]
  cases function.params[i]? with
  | none => rfl
  | some param =>
    simp only [Option.map_some, (rules.plans_planParameter param i).name_imported,
      WrapperIndex.name_glueParameter]

theorem params_eq_nil_of_property {c : ScopedClass} {function : MemberFunction}
    {exportName : String} (h : (rules.wrapFunction c function exportName).kind = .property) :
    function.params = [] := by
  simp only [wrapFunction] at h
  split at h
  · cases h
  · simp only at h
    split at h
    · rename_i hproperty
      simp only [NamingPolicy.isProperty, Bool.and_eq_true, List.isEmpty_iff] at hproperty
      exact hproperty.1.1.2
    · cases h

end BindingRules

def MemberFunction.handles (function : MemberFunction) : Nat := if function.isInstance then 1 else 0

/-- Export, import and wrapper member of a function agree on their arguments. -/
structure ForwardsArguments (function : MemberFunction) (glue : GlueFunction)
    (imported : ImportDeclaration) (wrapper : WrapperMember) : Prop where
  exportParams : glue.params.length = function.handles + function.params.length
  importParams : imported.params.length = glue.params.length
  exportHandle : glue.params.head?.map (·.name) = some handleParameter ↔ function.isInstance = true
  importHandle :
    imported.params.head?.map (·.name) = some handleParameter ↔ function.isInstance = true
  names : imported.params.map (·.name) = glue.params.map fun p => hostIdentifier p.name
  wrapperParams : wrapper.params.length = function.params.length
  wrapperArgs : wrapper.args.length = imported.params.length
  /-- Only instance methods hand over the object itself, before everything else. -/
  receiver : function.isInstance = true → wrapper.args.head? = some "this.Handle"
  passed : ∀ (i : Nat) (p : WrapperParameter), wrapper.params[i]? = some p →
    ∃ arg, wrapper.args[function.handles + i]? = some arg ∧ p.Passes arg
  exportArgs : glue.args.length = function.params.length
  forwarded : ∀ (i : Nat) (param : Parameter), function.params[i]? = some param →
    ∃ p arg, glue.params[function.handles + i]? = some p ∧ glue.args[i]? = some arg ∧
      param.type.ForwardedAs p arg
  property : wrapper.kind = .property → wrapper.params = []

theorem getElem?_handles_append {α : Type} (function : MemberFunction) (handle : α)
    (rest : List α) (i : Nat) :
    ((if function.isInstance then [handle] else []) ++ rest)[function.handles + i]? =
      rest[i]? := by
  unfold MemberFunction.handles
  cases function.isInstance with
  | true => simp [Nat.add_comm 1 i]
  | false => simp

private theorem length_handles_append {α : Type} (function : MemberFunction) (handle : α)
    (rest : List α) :
    ((if function.isInstance then [handle] else []) ++ rest).length =
      function.handles + rest.length := by
  unfold MemberFunction.handles
  cases function.isInstance with
  | true => simp [Nat.add_comm]
  | false => simp

private theorem head?_handles_append {function : MemberFunction} {rest : List String}
    (h : ∀ name ∈ rest, name ≠ handleParameter) :
    ((if function.isInstance then [handleParameter] else []) ++ rest).head? =
      some handleParameter ↔ function.isInstance = true := by
  cases function.isInstance with
  | true => simp
  | false =>
    cases rest with
    | nil => simp
    | cons name rest => simpa using h name List.mem_cons_self

section

variable (rules : BindingRules) (c : ScopedClass) (function : MemberFunction) (exportName : String)

theorem WrapperIndex.names_glueFunction (index : WrapperIndex) :
    (index.glueFunction c function).params.map (·.name) =
      (if function.isInstance then [handleParameter] else []) ++
        (index.glueParameters function).map (·.1.name) := by
  unfold glueFunction
  cases function.isInstance with
  | true => simp [ScopedClass.glueHandle, Function.comp_def]
  | false => simp [Function.comp_def]

theorem BindingRules.names_importFunction :
    (rules.importFunction function exportName).params.map (·.name) =
      (if function.isInstance then [handleParameter] else []) ++
        (rules.planParameters function).map (·.imported.name) := by
  unfold importFunction
  cases function.isInstance with
  | true => simp [importHandle, Function.comp_def]
  | false => simp [Function.comp_def]

theorem WrapperIndex.name_ne_handleParameter (index : WrapperIndex) {name : String}
    (h : name ∈ (index.glueParameters function).map (·.1.name)) : name ≠ handleParameter := by
  obtain ⟨p, hp, rfl⟩ := List.mem_map.mp h
  obtain ⟨i, hi⟩ := List.getElem?_of_mem hp
  rw [getElem?_glueParameters] at hi
  obtain ⟨param, -, rfl⟩ := Option.map_eq_some_iff.mp hi
  rw [name_glueParameter]
  exact parameterName_ne_handleParameter _ _

/-- For every class, function, index of classes, table of aliases and naming policy, export, import
and wrapper member of the function forward the same argument list. -/
theorem forwards_same_arguments :
    ForwardsArguments function (rules.index.glueFunction c function)
      (rules.importFunction function exportName) (rules.wrapFunction c function exportName) where
  exportParams := by
    rw [WrapperIndex.glueFunction, length_handles_append, List.length_map,
      WrapperIndex.length_glueParameters]
  importParams := by
    rw [WrapperIndex.glueFunction, BindingRules.importFunction, length_handles_append,
      length_handles_append, List.length_map, List.length_map, WrapperIndex.length_glueParameters,
      BindingRules.length_planParameters]
  exportHandle := by
    rw [← List.head?_map, WrapperIndex.names_glueFunction]
    exact head?_handles_append fun name hn => rules.index.name_ne_handleParameter function hn
  importHandle := by
    rw [← List.head?_map, BindingRules.names_importFunction, BindingRules.names_planParameters]
    apply head?_handles_append
    intro name hn
    obtain ⟨p, hp, rfl⟩ := List.mem_map.mp hn
    exact hostIdentifier_ne_handleParameter
      (rules.index.name_ne_handleParameter function (List.mem_map_of_mem hp))
  names := by
    have hglue : (rules.index.glueFunction c function).params.map (fun p => hostIdentifier p.name) =
        ((rules.index.glueFunction c function).params.map (·.name)).map hostIdentifier := by
      rw [List.map_map]
      rfl
    rw [BindingRules.names_importFunction, BindingRules.names_planParameters, hglue,
      WrapperIndex.names_glueFunction, List.map_append, List.map_map]
    congr 1
    cases function.isInstance with
    | true => simp [hostIdentifier_handleParameter]
    | false => rfl
  wrapperParams := by
    rw [BindingRules.params_wrapFunction, List.length_map, BindingRules.length_planParameters]
  wrapperArgs := by
    rw [BindingRules.args_wrapFunction, BindingRules.importFunction, length_handles_append,
      length_handles_append, List.length_map, List.length_map]
  receiver := by
    intro h
    rw [BindingRules.args_wrapFunction, if_pos h]
    rfl
  passed := by
    intro i p hp
    rw [BindingRules.params_wrapFunction, List.getElem?_map, BindingRules.getElem?_planParameters,
      Option.map_map] at hp
    obtain ⟨param, hparam, rfl⟩ := Option.map_eq_some_iff.mp hp
    refine ⟨(rules.planParameter param i).argument, ?_, (rules.plans_planParameter param i).passes⟩
    rw [BindingRules.args_wrapFunction, getElem?_handles_append, List.getElem?_map,
      BindingRules.getElem?_planParameters, hparam]
    rfl
  exportArgs := by
    rw [WrapperIndex.glueFunction, List.length_map, WrapperIndex.length_glueParameters]
  forwarded := by
    intro i param hparam
    refine ⟨(rules.index.glueParameter param i).1, (rules.index.glueParameter param i).2, ?_, ?_,
      rules.index.forwardedAs_glueParameter param i⟩
    · rw [WrapperIndex.glueFunction, getElem?_handles_append, List.getElem?_map,
        WrapperIndex.getElem?_glueParameters, hparam]
      rfl
    · rw [WrapperIndex.glueFunction, List.getElem?_map, WrapperIndex.getElem?_glueParameters,
        hparam]
      rfl
  property := by
    intro h
    have hparams := rules.params_eq_nil_of_property h
    rw [BindingRules.params_wrapFunction, BindingRules.planParameters, hparams]
    rfl

end

/-- A method whose parameter types are written with blanks that C++ ignores. -/
def MemberFunction.spaced : MemberFunction :=
  (method "add" .void).addParameter ⟨"count", ⟨"int "⟩⟩
    |>.addParameter ⟨"total", ⟨"uint64_t &"⟩⟩

/-- A type with a blank at its end is not exported as it is declared, nor does a reference become a
pointer by the star alone: blanks go as well. -/
theorem blanks_not_forwarded :
    ∃ value reference : GlueParameter,
      (WrapperIndex.empty.glueFunction ⟨.ofName "Meter", []⟩ .spaced).params[1]? = some value ∧
      (WrapperIndex.empty.glueFunction ⟨.ofName "Meter", []⟩ .spaced).params[2]? =
        some reference ∧
      (WrapperIndex.empty.glueFunction ⟨.ofName "Meter", []⟩ .spaced).args =
        [value.name, "*" ++ reference.name] ∧
      MemberFunction.spaced.params = [⟨"count", ⟨"int "⟩⟩, ⟨"total", ⟨"uint64_t " ++ "&"⟩⟩] ∧
      value.type ≠ "int " ∧ reference.type ≠ "uint64_t " ++ "*" :=
  ⟨⟨"int", "count"⟩, ⟨"uint64_t*", "total"⟩, by decide +kernel⟩

end NativeBindings
