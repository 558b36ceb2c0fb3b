import NativeBindings.Proofs.Native.Written

/-!
# Declarations as values

The value of declarations has every field in place, and its text is what is written of them. The
levels that it takes are enough for everything else that stands for the same declarations.
-/

namespace NativeBindings

open Json (HasField ListForm ObjectForm OptionForm TextForm Value kept keysOf)
open Json.Reader

def optionValue {α : Type} (value : α → Value) : Option α → Value
  | none => .null
  | some a => value a

theorem text_optionValue {α : Type} (value : α → Value) (a : Option α) :
    (optionValue value a).text = Json.Print.optional (fun a => (value a).text) a := by
  cases a <;> rfl

def SourceLocation.value (location : SourceLocation) : Value :=
  .object [("file", optionValue .string location.file),
    ("line", .number (.natural location.line.toNat)),
    ("column", .number (.natural location.column.toNat))]

def Parameter.value (param : Parameter) : Value :=
  .object [("name", .string param.name), ("type", .string param.type.spelling)]

def MemberFunction.fields (function : MemberFunction) : List (String × Value) :=
  [("name", .string function.name), ("return_type", .string function.returnType.spelling),
    ("params", .list (function.params.map (·.value))), ("kind", .string function.kind.word),
    ("is_static", .boolean function.isStatic), ("doc", optionValue .string function.doc),
    ("is_operator", .boolean function.markedOperator),
    ("location", optionValue (·.value) function.location)]

def MemberFunction.value (function : MemberFunction) : Value := .object function.fields

namespace NativeClass

mutual

def value : NativeClass → Value
  | ⟨name, constructors, functions, classes, doc, location⟩ =>
    .object [("name", .string name), ("constructors", .list (constructors.map (·.value))),
      ("functions", .list (functions.map (·.value))), ("classes", .list (values classes)),
      ("doc", optionValue .string doc), ("location", optionValue (·.value) location)]

def values : List NativeClass → List Value
  | [] => []
  | c :: classes => c.value :: values classes

end

def fields (c : NativeClass) : List (String × Value) :=
  [("name", .string c.name), ("constructors", .list (c.constructors.map (·.value))),
    ("functions", .list (c.functions.map (·.value))), ("classes", .list (values c.classes)),
    ("doc", optionValue .string c.doc), ("location", optionValue (·.value) c.location)]

theorem value_eq (c : NativeClass) : c.value = .object c.fields := by
  cases c
  rfl

end NativeClass

def Declarations.fields (tree : Declarations) : List (String × Value) :=
  [("header", optionValue .string tree.header),
    ("classes", .list (NativeClass.values tree.classes))]

def Declarations.value (tree : Declarations) : Value := .object tree.fields

theorem texts_map {α : Type} (value : α → Value) (as : List α) :
    Value.texts (as.map value) = as.map fun a => (value a).text := by
  rw [Value.texts_eq_map, List.map_map]
  rfl

theorem SourceLocation.text_value (location : SourceLocation) :
    location.value.text = location.json := by
  simp [value, json, Value.text_object, Value.memberText, text_optionValue, Value.text]

theorem Parameter.text_value (param : Parameter) : param.value.text = param.json := by
  simp [value, json, Value.text_object, Value.memberText, Value.text]

theorem MemberFunction.text_value (function : MemberFunction) :
    function.value.text = function.json := by
  rw [value, fields, json, Value.text_object]
  simp only [List.map_cons, List.map_nil, Value.memberText, Value.text, texts_map,
    text_optionValue, Parameter.text_value, SourceLocation.text_value, Json.Print.list]

namespace NativeClass

theorem values_eq_map (classes : List NativeClass) : values classes = classes.map (·.value) := by
  induction classes with
  | nil => rfl
  | cons c classes ih => rw [values, ih, List.map_cons]

theorem texts_values {classes : List NativeClass} (h : ∀ c ∈ classes, c.value.text = c.json) :
    Value.texts (values classes) = jsonOfClasses classes := by
  induction classes with
  | nil => rfl
  | cons c classes ih =>
    rw [List.forall_mem_cons] at h
    rw [values, Value.texts, jsonOfClasses, h.1, ih h.2]

theorem text_value (c : NativeClass) : c.value.text = c.json := by
  induction c using NativeClass.nestedInduction with
  | step c ih =>
    cases c
    rw [value, json, Value.text_object]
    simp only [List.map_cons, List.map_nil, Value.memberText, Value.text, texts_map,
      texts_values ih, text_optionValue, MemberFunction.text_value, SourceLocation.text_value,
      Json.Print.list]

end NativeClass

theorem Declarations.text_value (tree : Declarations) : tree.value.text = tree.json := by
  have hclasses := NativeClass.texts_values fun c (_ : c ∈ tree.classes) => c.text_value
  rw [value, fields, json, Value.text_object]
  simp only [List.map_cons, List.map_nil, Value.memberText, text_optionValue, Value.text, hclasses]

theorem optionForm_text (text : Option String) :
    OptionForm TextForm text (optionValue .string text) := by
  cases text <;> rfl

theorem mem_take_of_getElem? {α : Type} {as : List α} {a : α} {i k : Nat} (h : as[i]? = some a)
    (hi : i < k) : a ∈ as.take k :=
  List.mem_of_getElem? ((List.getElem?_take_of_lt hi).trans h)

theorem forall₂_map {α : Type} {isForm : α → Value → Prop} {value : α → Value} {as : List α}
    (h : ∀ a ∈ as, isForm a (value a)) :
    List.Forall₂ (fun v a => isForm a v) (as.map value) as := by
  rw [List.forall₂_map_left_iff, List.forall₂_same]
  exact h

theorem SourceLocation.isWritten_value (location : SourceLocation) {levels : Nat}
    (h : location.value.depth ≤ levels) : location.IsWritten levels location.value := by
  refine ObjectForm.of_depth h fun inner _ => ?_
  have hkeys : ["file", "line", "column"].Nodup := by decide
  exact ⟨.of_getElem? 0 rfl hkeys (optionForm_text _), .of_getElem? 1 rfl hkeys rfl,
    .of_getElem? 2 rfl hkeys rfl⟩

theorem optionForm_location (location : Option SourceLocation) {levels : Nat}
    (h : (optionValue (·.value) location).depth ≤ levels) :
    OptionForm (·.IsWritten levels) location (optionValue (·.value) location) := by
  cases location with
  | none => rfl
  | some location => exact location.isWritten_value h

theorem Parameter.isWritten_value (param : Parameter) {levels : Nat}
    (h : param.value.depth ≤ levels) : param.IsWritten levels param.value := by
  refine ObjectForm.of_depth h fun inner _ => ?_
  have hkeys : ["name", "type"].Nodup := by decide
  exact ⟨.of_getElem? 0 rfl hkeys rfl, .of_getElem? 1 rfl hkeys rfl⟩

theorem parameterListForm_value (params : List Parameter) {levels : Nat}
    (h : (Value.list (params.map (·.value))).depth ≤ levels) :
    ParameterListForm params levels (.list (params.map (·.value))) :=
  ListForm.of_depth h fun _ hinner => forall₂_map fun param hparam =>
    param.isWritten_value (hinner _ (List.mem_map_of_mem hparam))

/-- The function with defaults in place of all fields from a place on. -/
def MemberFunction.upTo (function : MemberFunction) (k : Nat) : MemberFunction :=
  { name := function.name
    returnType := ⟨kept 1 k function.returnType.spelling NativeType.void.spelling⟩
    params := kept 2 k function.params []
    kind := kept 3 k function.kind .method
    isStatic := kept 4 k function.isStatic false
    doc := kept 5 k function.doc none
    markedOperator := kept 6 k function.markedOperator false
    location := kept 7 k function.location none }

theorem MemberFunction.nodup_fields (function : MemberFunction) :
    (keysOf function.fields).Nodup := by
  change ["name", "return_type", "params", "kind", "is_static", "doc", "is_operator",
    "location"].Nodup
  decide

theorem MemberFunction.hasMembers_take (function : MemberFunction) {inner k : Nat} (hk : 0 < k)
    (hfits : ∀ m ∈ function.fields.take k, m.2.depth ≤ inner) :
    (function.upTo k).HasMembers inner (function.fields.take k) := by
  have hkeys := function.nodup_fields
  have hdepth : ∀ {i m}, function.fields[i]? = some m → i < k → m.2.depth ≤ inner :=
    fun hm hi => hfits _ (mem_take_of_getElem? hm hi)
  exact
    { name := .of_take hk rfl hkeys rfl
      returnType := .of_kept TextForm 1 rfl hkeys fun _ => rfl
      params := .of_kept (ParameterListForm · inner) 2 rfl hkeys
        fun h => parameterListForm_value _ (hdepth (i := 2) rfl h)
      kind := .of_kept (fun kind : FunctionKind => TextForm kind.word) 3 rfl hkeys fun _ => rfl
      isStatic := .of_kept (fun isStatic v => v = .boolean isStatic) 4 rfl hkeys fun _ => rfl
      doc := .of_kept (OptionForm TextForm) 5 rfl hkeys fun _ => optionForm_text _
      markedOperator := .of_kept (fun marked v => v = .boolean marked) 6 rfl hkeys fun _ => rfl
      location := .of_kept (OptionForm (SourceLocation.IsWritten · inner)) 7 rfl hkeys
        fun h => optionForm_location _ (hdepth (i := 7) rfl h) }

theorem MemberFunction.isWritten_value (function : MemberFunction) {levels : Nat}
    (h : function.value.depth ≤ levels) : function.IsWritten levels function.value :=
  ObjectForm.of_depth h fun _ hinner => function.hasMembers_take (k := 8) (by decide) hinner

theorem functionListForm_value (functions : List MemberFunction) {levels : Nat}
    (h : (Value.list (functions.map (·.value))).depth ≤ levels) :
    FunctionListForm functions levels (.list (functions.map (·.value))) :=
  ListForm.of_depth h fun _ hinner => forall₂_map fun function hfunction =>
    function.isWritten_value (hinner _ (List.mem_map_of_mem hfunction))

namespace NativeClass

theorem areWritten_values {classes : List NativeClass} {levels : Nat}
    (h : ∀ c ∈ classes, c.value.depth ≤ levels → c.IsWritten levels c.value)
    (hdepth : ∀ v ∈ values classes, v.depth ≤ levels) :
    areWritten classes levels (values classes) := by
  induction classes with
  | nil => rfl
  | cons c classes ih =>
    rw [values, List.forall_mem_cons] at hdepth
    rw [List.forall_mem_cons] at h
    exact ⟨c.value, values classes, h.1 hdepth.1, ih h.2 hdepth.2, rfl⟩

def upTo (c : NativeClass) (k : Nat) : NativeClass :=
  { name := c.name
    constructors := kept 1 k c.constructors []
    functions := kept 2 k c.functions []
    classes := kept 3 k c.classes []
    doc := kept 4 k c.doc none
    location := kept 5 k c.location none }

theorem nodup_fields (c : NativeClass) : (keysOf c.fields).Nodup := by
  change ["name", "constructors", "functions", "classes", "doc", "location"].Nodup
  decide

theorem hasMembers_take (c : NativeClass) {inner k : Nat} (hk : 0 < k)
    (hnested : ∀ nested ∈ c.classes, ∀ {levels}, nested.value.depth ≤ levels →
      nested.IsWritten levels nested.value)
    (hfits : ∀ m ∈ c.fields.take k, m.2.depth ≤ inner) :
    (c.upTo k).HasMembers (ListForm inner (areWritten (c.upTo k).classes)) inner
      (c.fields.take k) := by
  have hkeys := c.nodup_fields
  have hdepth : ∀ {i m}, c.fields[i]? = some m → i < k → m.2.depth ≤ inner :=
    fun hm hi => hfits _ (mem_take_of_getElem? hm hi)
  exact
    { name := .of_take hk rfl hkeys rfl
      constructors := .of_kept (FunctionListForm · inner) 1 rfl hkeys
        fun h => functionListForm_value _ (hdepth (i := 1) rfl h)
      functions := .of_kept (FunctionListForm · inner) 2 rfl hkeys
        fun h => functionListForm_value _ (hdepth (i := 2) rfl h)
      classes := .of_kept (fun classes => ListForm inner (areWritten classes)) 3 rfl hkeys
        fun h => ListForm.of_depth (hdepth (i := 3) rfl h) fun _ hdeeper =>
          areWritten_values (fun nested hn => hnested nested hn) hdeeper
      doc := .of_kept (OptionForm TextForm) 4 rfl hkeys fun _ => optionForm_text _
      location := .of_kept (OptionForm (SourceLocation.IsWritten · inner)) 5 rfl hkeys
        fun h => optionForm_location _ (hdepth (i := 5) rfl h) }

theorem isWritten_value (c : NativeClass) {levels : Nat} (h : c.value.depth ≤ levels) :
    c.IsWritten levels c.value := by
  induction c using NativeClass.nestedInduction generalizing levels with
  | step c ih =>
    rw [value_eq] at h ⊢
    refine isWritten_iff.mpr (ObjectForm.of_depth h fun inner hinner => ?_)
    -- Six is the number of all fields, so `upTo` leaves the class as it is.
    have hall := c.hasMembers_take (k := 6) (by decide) (fun nested hn => ih nested hn) hinner
    cases c
    exact hall

end NativeClass

namespace Declarations

def upTo (tree : Declarations) (k : Nat) : Declarations :=
  ⟨kept 0 k tree.header none, kept 1 k tree.classes []⟩

theorem nodup_fields (tree : Declarations) : (keysOf tree.fields).Nodup := by
  change ["header", "classes"].Nodup
  decide

theorem hasMembers_take (tree : Declarations) {inner k : Nat}
    (hfits : ∀ m ∈ tree.fields.take k, m.2.depth ≤ inner) :
    (tree.upTo k).HasMembers inner (tree.fields.take k) := by
  have hkeys := tree.nodup_fields
  have hclasses : 1 < k → (Value.list (NativeClass.values tree.classes)).depth ≤ inner :=
    fun h => hfits _ (mem_take_of_getElem? (i := 1) rfl h)
  exact
    { header := .of_kept (OptionForm TextForm) 0 rfl hkeys fun _ => optionForm_text _
      classes := .of_kept (fun classes => ListForm inner (NativeClass.areWritten classes)) 1 rfl
        hkeys fun h => ListForm.of_depth (hclasses h) fun _ hdeeper =>
          NativeClass.areWritten_values (fun c _ => c.isWritten_value) hdeeper }

theorem isWritten_value (tree : Declarations) {levels : Nat} (h : tree.value.depth ≤ levels) :
    tree.IsWritten levels tree.value :=
  ObjectForm.of_depth h fun _ hinner => tree.hasMembers_take (k := 2) hinner

end Declarations

theorem forall₂_imp_mem {α β : Type} {R S : α → β → Prop} {as : List α} {bs : List β}
    (h : List.Forall₂ R as bs) (himp : ∀ b ∈ bs, ∀ a, R a b → S a b) : List.Forall₂ S as bs := by
  induction h with
  | nil => exact .nil
  | cons hhead _ ih =>
    rw [List.forall_mem_cons] at himp
    exact .cons (himp.1 _ hhead) (ih himp.2)

section

variable {levels levels' : Nat} {v : Value}

theorem SourceLocation.IsWritten.within {location : SourceLocation}
    (h : location.IsWritten levels v) (hdepth : location.value.depth ≤ levels') :
    location.IsWritten levels' v :=
  ObjectForm.within h hdepth fun _ _ _ _ h => h

theorem OptionForm.within_location {location : Option SourceLocation}
    (h : OptionForm (·.IsWritten levels) location v)
    (hdepth : (optionValue (·.value) location).depth ≤ levels') :
    OptionForm (·.IsWritten levels') location v := by
  cases location with
  | none => exact h
  | some location => exact SourceLocation.IsWritten.within h hdepth

theorem Parameter.IsWritten.within {param : Parameter} (h : param.IsWritten levels v)
    (hdepth : param.value.depth ≤ levels') : param.IsWritten levels' v :=
  ObjectForm.within h hdepth fun _ _ _ _ h => h

theorem MemberFunction.IsWritten.within {function : MemberFunction}
    (h : function.IsWritten levels v) (hdepth : function.value.depth ≤ levels') :
    function.IsWritten levels' v := by
  refine ObjectForm.within h hdepth fun inner inner' members hinner h => ?_
  have hparams : (Value.list (function.params.map (·.value))).depth ≤ inner' :=
    hinner _ (List.mem_of_getElem? (i := 2) rfl)
  have hlocation : (optionValue (·.value) function.location).depth ≤ inner' :=
    hinner _ (List.mem_of_getElem? (i := 7) rfl)
  exact { h with
    params := h.params.imp fun v hv => hv.within hparams fun _ _ _ hdeeper hvalues =>
      forall₂_imp_mem hvalues fun param hparam v hv =>
        hv.within (hdeeper _ (List.mem_map_of_mem hparam))
    location := h.location.imp fun v hv => OptionForm.within_location hv hlocation }

theorem FunctionListForm.within {functions : List MemberFunction}
    (h : FunctionListForm functions levels v)
    (hdepth : (Value.list (functions.map (·.value))).depth ≤ levels') :
    FunctionListForm functions levels' v :=
  ListForm.within h hdepth fun _ _ _ hdeeper hvalues =>
    forall₂_imp_mem hvalues fun _ hfunction _ hv =>
      hv.within (hdeeper _ (List.mem_map_of_mem hfunction))

namespace NativeClass

theorem areWritten_within {classes : List NativeClass}
    (h : ∀ c ∈ classes, ∀ v, c.IsWritten levels v → c.value.depth ≤ levels' →
      c.IsWritten levels' v) {others : List Value} (hothers : areWritten classes levels others)
    (hdepth : ∀ v ∈ values classes, v.depth ≤ levels') : areWritten classes levels' others := by
  induction classes generalizing others with
  | nil => exact hothers
  | cons c classes ih =>
    obtain ⟨v, others, hv, hothers, rfl⟩ := hothers
    rw [values, List.forall_mem_cons] at hdepth
    rw [List.forall_mem_cons] at h
    exact ⟨v, others, h.1 v hv hdepth.1, ih h.2 hothers hdepth.2, rfl⟩

theorem IsWritten.within {c : NativeClass} (h : c.IsWritten levels v)
    (hdepth : c.value.depth ≤ levels') : c.IsWritten levels' v := by
  induction c using NativeClass.nestedInduction generalizing levels levels' v with
  | step c ih =>
    rw [isWritten_iff] at h ⊢
    cases c
    rw [value] at hdepth
    refine ObjectForm.within h hdepth fun inner inner' members hinner h => ?_
    exact { h with
      constructors := h.constructors.imp fun v hv =>
        hv.within (hinner _ (List.mem_of_getElem? (i := 1) rfl))
      functions := h.functions.imp fun v hv =>
        hv.within (hinner _ (List.mem_of_getElem? (i := 2) rfl))
      classes := h.classes.imp fun v hv =>
        ListForm.within hv (hinner _ (List.mem_of_getElem? (i := 3) rfl))
          fun _ _ _ hdeeper hothers =>
            areWritten_within (fun c hc v hv => ih c hc hv) hothers hdeeper
      location := h.location.imp fun v hv =>
        OptionForm.within_location hv (hinner _ (List.mem_of_getElem? (i := 5) rfl)) }

end NativeClass

theorem Declarations.IsWritten.within {tree : Declarations} (h : tree.IsWritten levels v)
    (hdepth : tree.value.depth ≤ levels') : tree.IsWritten levels' v := by
  refine ObjectForm.within h hdepth fun inner inner' members hinner h => ?_
  exact { h with
    classes := h.classes.imp fun v hv =>
      ListForm.within hv (hinner _ (List.mem_of_getElem? (i := 1) rfl)) fun _ _ _ hdeeper hothers =>
        NativeClass.areWritten_within (fun _ _ _ hv => hv.within) hothers hdeeper }

end

end NativeBindings
