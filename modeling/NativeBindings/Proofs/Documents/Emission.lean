import NativeBindings.Binding.Document
import NativeBindings.Proofs.Boundary.Arguments
import NativeBindings.Proofs.Documents.Bindings
import NativeBindings.Proofs.Documents.Glue
import NativeBindings.Proofs.Host.Spelling

/-!
# Readability of what is emitted

Exports, imports and wrapper members of a function stay on their lines and can be read there, if the
names in its declaration are words, its types and those of its parameters are on one line, and no
parenthesis hides where a type ends.
-/

namespace NativeBindings

open Text

/-- Names of the function are words, and its types stay on their line. -/
structure MemberFunction.IsReadable (function : MemberFunction) : Prop where
  name : ConsistsOf IsSolid function.name
  returnType : ConsistsOf IsPlain function.returnType.spelling
  paramNames : ∀ param ∈ function.params, ConsistsOf IsInLine param.name
  paramTypes : ∀ param ∈ function.params, ConsistsOf IsInLine param.type.spelling

instance (function : MemberFunction) : Decidable function.IsReadable :=
  decidable_of_iff
    (ConsistsOf IsSolid function.name ∧ ConsistsOf IsPlain function.returnType.spelling ∧
      (∀ param ∈ function.params, ConsistsOf IsInLine param.name) ∧
      ∀ param ∈ function.params, ConsistsOf IsInLine param.type.spelling)
    ⟨fun ⟨h₁, h₂, h₃, h₄⟩ => ⟨h₁, h₂, h₃, h₄⟩, fun ⟨h₁, h₂, h₃, h₄⟩ => ⟨h₁, h₂, h₃, h₄⟩⟩

def ScopedClass.IsReadable (c : ScopedClass) : Prop := ∀ name ∈ c.path, ConsistsOf IsSolid name

namespace Text

theorem isPlain_of_isSolid {text : String} (h : ConsistsOf IsSolid text) :
    ConsistsOf IsPlain text :=
  h.mono fun _ => IsSolid.isPlain

theorem isInLine_of_isPlain {text : String} (h : ConsistsOf IsPlain text) :
    ConsistsOf IsInLine text :=
  h.mono fun _ => IsPlain.isInLine

theorem isInLine_of_isSolid {text : String} (h : ConsistsOf IsSolid text) :
    ConsistsOf IsInLine text :=
  isInLine_of_isPlain (isPlain_of_isSolid h)

theorem isInLine_list {texts : List String} (h : ∀ text ∈ texts, ConsistsOf IsInLine text) :
    ConsistsOf IsInLine (", ".intercalate texts) :=
  consistsOf_intercalate (by decide) h

theorem isInLine_map {α : Type} {items : List α} {text : α → String}
    (h : ∀ item ∈ items, ConsistsOf IsInLine (text item)) :
    ∀ t ∈ items.map text, ConsistsOf IsInLine t := by
  rwa [List.forall_mem_map]

end Text

namespace ScopedClass

variable {c : ScopedClass} {function : MemberFunction}

theorem isSolid_qualifiedName (h : c.IsReadable) : ConsistsOf IsSolid c.qualifiedName :=
  consistsOf_intercalate (by decide) h

theorem isSolid_name (h : c.IsReadable) : ConsistsOf IsSolid c.name :=
  h c.name (List.mem_append_right _ List.mem_cons_self)

theorem isPlain_pointerSpelling (h : c.IsReadable) : ConsistsOf IsPlain c.pointerSpelling :=
  consistsOf_append.mpr ⟨isPlain_of_isSolid (isSolid_qualifiedName h), by decide⟩

theorem isSolid_exportName (h : c.IsReadable) (hf : function.IsReadable) :
    ConsistsOf IsSolid (c.exportName function) := by
  simp only [exportName, consistsOf_append]
  refine ⟨⟨⟨isSolid_name h, by decide⟩, ?_⟩, hf.name⟩
  split <;> decide

theorem isSolid_disposeName (h : c.IsReadable) : ConsistsOf IsSolid c.disposeName :=
  consistsOf_append.mpr ⟨isSolid_name h, by decide⟩

end ScopedClass

def GlueCall.names : GlueCall → List String
  | construct className => [className]
  | callStatic className function => [className, function]
  | callInstance function => [function]
  | delete => []

namespace GlueFunction

variable {f : GlueFunction}

theorem isInLine_statement (hcall : ∀ name ∈ f.call.names, ConsistsOf IsInLine name)
    (hargs : ∀ arg ∈ f.args, ConsistsOf IsInLine arg) : ConsistsOf IsInLine f.statement := by
  have hlist := isInLine_list hargs
  have hresult : ConsistsOf IsInLine (if f.returnsValue then "return " else "") := by
    split <;> decide
  unfold statement
  generalize ", ".intercalate f.args = args at hlist ⊢
  generalize (if f.returnsValue then "return " else "") = result at hresult ⊢
  cases hcalled : f.call with
  | construct className =>
    rw [hcalled] at hcall
    have hclass := hcall className (by simp [GlueCall.names])
    simp only [consistsOf_append, hclass, hlist, and_true]
    decide
  | callStatic className function =>
    rw [hcalled] at hcall
    have hclass := hcall className (by simp [GlueCall.names])
    have hfunction := hcall function (by simp [GlueCall.names])
    simp only [consistsOf_append, hresult, hclass, hfunction, hlist, and_true, true_and]
    decide
  | callInstance function =>
    rw [hcalled] at hcall
    have hfunction := hcall function (by simp [GlueCall.names])
    simp only [consistsOf_append, hresult, hfunction, hlist, and_true, true_and]
    decide
  | delete =>
    change ConsistsOf IsInLine "delete target;"
    decide

theorem isInLine_text (hname : ConsistsOf IsInLine f.exportName)
    (hreturn : ConsistsOf IsInLine f.returnType)
    (hparams : ∀ param ∈ f.params, ConsistsOf IsInLine param.text)
    (hstatement : ConsistsOf IsInLine f.statement) : ConsistsOf IsInLine f.text := by
  have hlist := isInLine_list (isInLine_map hparams)
  unfold text
  generalize ", ".intercalate (f.params.map (·.text)) = params at hlist ⊢
  generalize f.statement = statement at hstatement ⊢
  simp only [consistsOf_append, hname, hreturn, hlist, hstatement, and_true]
  decide

end GlueFunction

namespace WrapperIndex

variable (index : WrapperIndex) {c : ScopedClass} {function : MemberFunction}

theorem isInLine_glueParameter {param : Parameter} (hn : ConsistsOf IsInLine param.name)
    (ht : ConsistsOf IsInLine param.type.spelling) (position : Nat) :
    ConsistsOf IsInLine (index.glueParameter param position).1.text ∧
      ConsistsOf IsInLine (index.glueParameter param position).2 := by
  have hname := isInLine_parameterName hn position
  have hspelled : ∀ c ∈ trimEnd param.type.spelling.toList, IsInLine c := fun c hc =>
    ht c ((trimEnd_isPrefix _).subset hc)
  have hreferenced : ∀ c ∈ param.type.withoutReference, IsInLine c := by
    intro c hc
    unfold NativeType.withoutReference at hc
    cases hlast : withoutLast? '&' (trimEnd param.type.spelling.toList) with
    | none =>
      simp only [hlast, Option.map_none, Option.getD_none] at hc
      exact hspelled c hc
    | some referenced =>
      simp only [hlast, Option.map_some, Option.getD_some] at hc
      rw [eq_append_of_withoutLast? hlast, List.forall_mem_append] at hspelled
      exact hspelled.1 c ((trimEnd_isPrefix referenced).subset hc)
  obtain h | h := index.glueParameter_cases param position
  · rw [h]
    simp only [GlueParameter.text, consistsOf_append, consistsOf_ofList, hname, and_true]
    exact ⟨⟨⟨hreferenced, by decide⟩, by decide⟩, by decide⟩
  · rw [h]
    simp only [GlueParameter.text, consistsOf_append, consistsOf_ofList, hname, and_true]
    exact ⟨hspelled, by decide⟩

theorem isInLine_glueHandle (h : c.IsReadable) : ConsistsOf IsInLine c.glueHandle.text := by
  have htype := isInLine_of_isPlain (ScopedClass.isPlain_pointerSpelling h)
  have hname : ConsistsOf IsInLine handleParameter := by decide
  exact consistsOf_append.mpr ⟨consistsOf_append.mpr ⟨htype, by decide⟩, hname⟩

theorem isReadable_glueFunction (h : c.IsReadable) (hf : function.IsReadable) :
    (index.glueFunction c function).IsReadable := by
  have hexport := ScopedClass.isSolid_exportName h hf
  have hreturn : ConsistsOf IsPlain (index.glueFunction c function).returnType := by
    simp only [glueFunction]
    split
    · exact ScopedClass.isPlain_pointerSpelling h
    · exact hf.returnType
  have hparameters : ∀ p ∈ index.glueParameters function,
      ConsistsOf IsInLine p.1.text ∧ ConsistsOf IsInLine p.2 := by
    intro p hp
    obtain ⟨i, hi⟩ := List.getElem?_of_mem hp
    rw [getElem?_glueParameters] at hi
    obtain ⟨param, hparam, rfl⟩ := Option.map_eq_some_iff.mp hi
    have hmem := List.mem_of_getElem? hparam
    exact index.isInLine_glueParameter (hf.paramNames param hmem) (hf.paramTypes param hmem) i
  refine ⟨hexport, hreturn, GlueFunction.isInLine_text (isInLine_of_isSolid hexport)
    (isInLine_of_isPlain hreturn) ?_ (GlueFunction.isInLine_statement ?_ ?_)⟩
  · intro param hparam
    simp only [glueFunction] at hparam
    rcases List.mem_append.mp hparam with hparam | hparam
    · split at hparam
      · rw [List.mem_singleton.mp hparam]
        exact isInLine_glueHandle h
      · exact absurd hparam List.not_mem_nil
    · obtain ⟨p, hp, rfl⟩ := List.mem_map.mp hparam
      exact (hparameters p hp).1
  · have hclass := isInLine_of_isSolid (ScopedClass.isSolid_qualifiedName h)
    have hname := isInLine_of_isSolid hf.name
    simp only [glueFunction]
    split
    · simpa [GlueCall.names] using hclass
    · split
      · simpa [GlueCall.names] using ⟨hclass, hname⟩
      · simpa [GlueCall.names] using hname
  · simp only [glueFunction, List.forall_mem_map]
    exact fun p hp => (hparameters p hp).2

end WrapperIndex

theorem ScopedClass.isReadable_glueDispose {c : ScopedClass} (h : c.IsReadable) :
    c.glueDispose.IsReadable := by
  have hexport := isSolid_disposeName h
  have hreturn : ConsistsOf IsPlain "void" := by decide
  have hstatement : ConsistsOf IsInLine "delete target;" := by decide
  refine ⟨hexport, hreturn, GlueFunction.isInLine_text (isInLine_of_isSolid hexport)
    (isInLine_of_isPlain hreturn) ?_ hstatement⟩
  intro param hparam
  rw [List.mem_singleton.mp hparam]
  exact WrapperIndex.isInLine_glueHandle h

/-- Aliases, renames and names of wrappers stay on their lines. -/
structure BindingRules.IsReadable (rules : BindingRules) : Prop where
  aliases : ∀ entry ∈ rules.aliases.entries, ConsistsOf IsPlain entry.2
  renames : ∀ rule ∈ rules.naming.renames, ConsistsOf IsInLine rule.target
  wrappers : ∀ type wrapper, rules.index.wrapperFor? type = some wrapper →
    ConsistsOf IsInLine wrapper

/-- All parts of a wrapper member stay on their line. -/
structure WrapperMember.IsReadable (m : WrapperMember) : Prop where
  name : ConsistsOf IsInLine m.name
  returnType : ∀ type ∈ m.returnType, ConsistsOf IsInLine type
  params : ∀ param ∈ m.params, ConsistsOf IsInLine param.text
  target : ConsistsOf IsInLine m.target
  args : ∀ arg ∈ m.args, ConsistsOf IsInLine arg

theorem WrapperMember.isInLine_signature {m : WrapperMember} (h : m.IsReadable) :
    ConsistsOf IsInLine m.signature := by
  have hname := h.name
  have htarget := h.target
  have hparams := isInLine_list (isInLine_map h.params)
  have hargs := isInLine_list h.args
  have hmodifiers : ConsistsOf IsInLine (if m.isStatic then "public static" else "public") := by
    split <;> decide
  have hcall : ConsistsOf IsInLine m.importCall := by
    unfold importCall
    generalize ", ".intercalate m.args = args at hargs ⊢
    simp only [consistsOf_append, htarget, hargs, and_true, true_and]
    decide
  have hbody : ConsistsOf IsInLine m.body := by
    unfold body
    generalize m.importCall = call at hcall ⊢
    split <;> simp only [consistsOf_append, hcall, and_true, true_and] <;> decide
  have hhead : ConsistsOf IsInLine m.head := by
    unfold head
    generalize ", ".intercalate (m.params.map (·.text)) = params at hparams ⊢
    split
    · exact hname
    all_goals
      simp only [consistsOf_append, hname, hparams, and_true, true_and]
      decide
  have hreturn := h.returnType
  unfold signature
  generalize m.head = head at hhead ⊢
  generalize m.body = body at hbody ⊢
  cases hresult : m.returnType with
  | none =>
    simp only [consistsOf_append, hmodifiers, hhead, hbody, and_true, true_and]
    decide
  | some type =>
    have htype := hreturn type hresult
    simp only [consistsOf_append, hmodifiers, htype, hhead, hbody, and_true, true_and]
    decide

namespace BindingRules

variable {rules : BindingRules} (hr : rules.IsReadable)

include hr

theorem isPlain_hostType {type : NativeType} (h : ConsistsOf IsPlain type.spelling) :
    ConsistsOf IsPlain (rules.aliases.hostType type) :=
  AliasTable.consistsOf_hostName HostPrimitive.isPlain_keyword hr.aliases (by decide) h

theorem isInLine_hostName {name : String} (h : ConsistsOf IsInLine name) :
    ConsistsOf IsInLine (rules.aliases.hostName name) :=
  AliasTable.consistsOf_hostName (fun primitive => isInLine_of_isPlain primitive.isPlain_keyword)
    (fun entry he => isInLine_of_isPlain (hr.aliases entry he)) (by decide) h

theorem isInLine_hostType {type : NativeType} (h : ConsistsOf IsInLine type.spelling) :
    ConsistsOf IsInLine (rules.aliases.hostType type) := isInLine_hostName hr h

theorem isInLine_plan {type : NativeType} {name : String} {plan : ParameterPlan}
    (hp : rules.Plans type name plan) (hn : ConsistsOf IsInLine name)
    (ht : ConsistsOf IsInLine type.spelling) :
    ConsistsOf IsInLine plan.imported.text ∧ ConsistsOf IsInLine plan.wrapper.text ∧
      ConsistsOf IsInLine plan.argument := by
  have hhost := isInLine_hostType hr ht
  cases hp with
  | handle hw =>
    have hwrapper := hr.wrappers _ _ hw
    simp only [ImportParameter.text, WrapperParameter.text, consistsOf_append, hn, hwrapper,
      and_true, true_and]
    decide
  | boolReference | nativeIntReference | bool | nativeInt =>
    simp only [ImportParameter.text, WrapperParameter.text, consistsOf_append, hn, and_true]
    decide
  | reference _ _ hh | value _ _ hh =>
    rw [hh] at hhost
    simp only [ImportParameter.text, WrapperParameter.text, consistsOf_append, hn, hhost, and_true,
      true_and]
    decide

theorem isPlain_result {type : NativeType} {plan : ResultPlan} (hp : rules.PlansResult type plan)
    (h : ConsistsOf IsPlain type.spelling) :
    ConsistsOf IsPlain plan.imported ∧ ConsistsOf IsInLine plan.wrapper := by
  have hhost := isPlain_hostType hr h
  cases hp with
  | handle => decide
  | bool => decide
  | nativeInt => decide
  | value _ hh =>
    rw [hh] at hhost
    exact ⟨hhost, isInLine_of_isPlain hhost⟩

variable {c : ScopedClass} {function : MemberFunction}

theorem isInLine_planParameters (hf : function.IsReadable) :
    ∀ plan ∈ rules.planParameters function, ConsistsOf IsInLine plan.imported.text ∧
      ConsistsOf IsInLine plan.wrapper.text ∧ ConsistsOf IsInLine plan.argument := by
  intro plan hplan
  obtain ⟨i, param, hparam, hp⟩ := exists_plans_of_mem_planParameters hplan
  have hmem := List.mem_of_getElem? hparam
  have hname := isInLine_parameterName (hf.paramNames param hmem) i
  exact isInLine_plan hr hp (isInLine_hostIdentifier hname) (hf.paramTypes param hmem)

theorem isReadable_importFunction (hf : function.IsReadable) {exportName : String}
    (he : ConsistsOf IsSolid exportName) :
    (rules.importFunction function exportName).IsReadable := by
  have hplans := isInLine_planParameters hr hf
  refine ⟨he, ?_, ?_⟩
  · simp only [importFunction]
    split
    · decide
    · exact (isPlain_result hr (rules.plansResult_planResult _) hf.returnType).1
  · simp only [importFunction, List.forall_mem_append, List.forall_mem_map]
    refine ⟨?_, fun plan hplan => (hplans plan hplan).1⟩
    split <;> decide

theorem isInLine_wrapperName (h : c.IsReadable) : ConsistsOf IsInLine (rules.wrapperName c) :=
  isInLine_hostName hr (isInLine_of_isSolid (ScopedClass.isSolid_name h))

theorem isReadable_wrapFunction (h : c.IsReadable) (hf : function.IsReadable)
    {exportName : String} (he : ConsistsOf IsSolid exportName) :
    (rules.wrapFunction c function exportName).IsReadable := by
  have hplans := isInLine_planParameters hr hf
  have hmember := NamingPolicy.isInLine_memberName hr.renames (isInLine_of_isSolid hf.name)
    function.isStatic
  have hresult := (isPlain_result hr (rules.plansResult_planResult _) hf.returnType).2
  constructor
  case name =>
    simp only [wrapFunction]
    split
    · exact isInLine_wrapperName hr h
    · exact hmember
  case returnType =>
    intro type htype
    simp only [wrapFunction] at htype
    split at htype
    · cases htype
    · cases htype
      exact hresult
  case params =>
    rw [params_wrapFunction, List.forall_mem_map]
    exact fun plan hplan => (hplans plan hplan).2.1
  case target =>
    rw [target_wrapFunction]
    exact isInLine_of_isSolid he
  case args =>
    rw [args_wrapFunction, List.forall_mem_append, List.forall_mem_map]
    refine ⟨?_, fun plan hplan => (hplans plan hplan).2.2⟩
    split <;> decide

end BindingRules

theorem ScopedClass.isReadable_importDispose {c : ScopedClass} (h : c.IsReadable) :
    c.importDispose.IsReadable := by
  have hreturn : ConsistsOf IsPlain "void" := by decide
  refine ⟨isSolid_disposeName h, hreturn, ?_⟩
  intro param hparam
  rw [List.mem_singleton.mp hparam]
  decide

end NativeBindings
