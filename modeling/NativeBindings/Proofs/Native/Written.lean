import NativeBindings.Native.FromJson
import NativeBindings.Native.ToJson
import NativeBindings.Proofs.Json.Records
import NativeBindings.Proofs.Scope.PreOrder

/-!
# Written declarations

The values that stand for declarations. Fields may come in any order, those that hold their default
may be left out, and there may be members that no declaration has. Lists and objects that a
declaration asks for stand within a number of levels; what is skipped does not count.
-/

namespace NativeBindings

open Json (EndsValue HasField ListForm ObjectForm OptionForm Reader TextForm Value given keysOf)
open Json.Reader

structure SourceLocation.HasMembers (location : SourceLocation)
    (members : List (String × Value)) : Prop where
  file : HasField members "file" (OptionForm TextForm location.file) (location.file = none)
  line : HasField members "line" (· = .number (.natural location.line.toNat)) (location.line = 0)
  column :
    HasField members "column" (· = .number (.natural location.column.toNat)) (location.column = 0)

def SourceLocation.IsWritten (location : SourceLocation) (levels : Nat) : Value → Prop :=
  ObjectForm levels fun _ members => location.HasMembers members

/-- The fields that have been read when some keys have. -/
def LocationFields.of (location : SourceLocation) (keys : List String) : LocationFields :=
  ⟨given keys "file" location.file, given keys "line" location.line,
    given keys "column" location.column⟩

theorem LocationFields.readsMembers {location : SourceLocation} {members : List (String × Value)}
    (h : location.HasMembers members) :
    ReadsMembers LocationFields.read (fun done => .of location (keysOf done)) members := by
  rintro done ⟨key, v⟩ todo hsplit rest hrest
  have hword : ∀ {value : UInt32} {v : Value}, v = .number (.natural value.toNat) →
      word32.Reads v value := by
    rintro value _ rfl
    exact reads_word32 value
  simp only [LocationFields.read, Json.keysOf_concat]
  split
  · refine h.file.takes_field hsplit (fun v hv => hv.reads_text) ?_ hrest
    simp [LocationFields.of, given]
  · refine h.line.takes_field hsplit (fun v hv => hword hv) ?_ hrest
    simp [LocationFields.of, given]
  · refine h.column.takes_field hsplit (fun v hv => hword hv) ?_ hrest
    simp [LocationFields.of, given]
  · rename_i hfile hline hcolumn
    have hsame : of location (keysOf done ++ [key]) = of location (keysOf done) := by
      simp [of, given, Ne.symm hfile, Ne.symm hline, Ne.symm hcolumn]
    rw [hsame]
    exact takes_unknownField _ v hrest

theorem LocationFields.location_of {location : SourceLocation} {members : List (String × Value)}
    (h : location.HasMembers members) : (of location (keysOf members)).location = location := by
  rw [LocationFields.location, of, h.file.getD_given, h.line.getD_given, h.column.getD_given]

theorem SourceLocation.IsWritten.reads {location : SourceLocation} {levels : Nat} {v : Value}
    (h : location.IsWritten levels v) : (readLocation levels).Reads v location := by
  obtain ⟨inner, members, rfl, rfl, hmembers⟩ := h
  refine reads_record (LocationFields.readsMembers hmembers) rfl ?_
  rw [LocationFields.location_of hmembers]

structure Parameter.HasMembers (param : Parameter) (members : List (String × Value)) : Prop where
  name : HasField members "name" (TextForm param.name) (param.name = "")
  type : HasField members "type" (TextForm param.type.spelling) False

def Parameter.IsWritten (param : Parameter) (levels : Nat) : Value → Prop :=
  ObjectForm levels fun _ members => param.HasMembers members

def ParameterFields.of (param : Parameter) (keys : List String) : ParameterFields :=
  ⟨given keys "name" param.name, given keys "type" param.type.spelling⟩

theorem ParameterFields.readsMembers {param : Parameter} {members : List (String × Value)}
    (h : param.HasMembers members) :
    ReadsMembers ParameterFields.read (fun done => .of param (keysOf done)) members := by
  rintro done ⟨key, v⟩ todo hsplit rest hrest
  simp only [ParameterFields.read, Json.keysOf_concat]
  split
  · refine h.name.takes_field hsplit (fun v hv => hv.reads) ?_ hrest
    simp [of, given]
  · refine h.type.takes_field hsplit (fun v hv => hv.reads) ?_ hrest
    simp [of, given]
  · rename_i hname htype
    have hsame : of param (keysOf done ++ [key]) = of param (keysOf done) := by
      simp [of, given, Ne.symm hname, Ne.symm htype]
    rw [hsame]
    exact takes_unknownField _ v hrest

theorem Parameter.IsWritten.reads {param : Parameter} {levels : Nat} {v : Value}
    (h : param.IsWritten levels v) : (readParameter levels).Reads v param := by
  obtain ⟨inner, members, rfl, rfl, hmembers⟩ := h
  refine reads_record (ParameterFields.readsMembers hmembers) rfl ?_
  simp only [ParameterFields.of, hmembers.type.given_required, hmembers.name.getD_given]
  rfl

def ParameterListForm (params : List Parameter) (levels : Nat) : Value → Prop :=
  ListForm levels fun levels values =>
    List.Forall₂ (fun v param => param.IsWritten levels v) values params

/-- The members that stand for a function, for a number of levels inside it. -/
structure MemberFunction.HasMembers (function : MemberFunction) (inner : Nat)
    (members : List (String × Value)) : Prop where
  name : HasField members "name" (TextForm function.name) False
  returnType : HasField members "return_type" (TextForm function.returnType.spelling)
    (function.returnType.spelling = NativeType.void.spelling)
  params : HasField members "params" (ParameterListForm function.params inner)
    (function.params = [])
  kind : HasField members "kind" (TextForm function.kind.word) (function.kind = .method)
  isStatic : HasField members "is_static" (· = .boolean function.isStatic)
    (function.isStatic = false)
  doc : HasField members "doc" (OptionForm TextForm function.doc) (function.doc = none)
  markedOperator : HasField members "is_operator" (· = .boolean function.markedOperator)
    (function.markedOperator = false)
  location : HasField members "location" (OptionForm (·.IsWritten inner) function.location)
    (function.location = none)

def MemberFunction.IsWritten (function : MemberFunction) (levels : Nat) : Value → Prop :=
  ObjectForm levels function.HasMembers

theorem SourceLocation.reads_optional {location : Option SourceLocation} {levels : Nat} {v : Value}
    (h : OptionForm (·.IsWritten levels) location v) :
    (optional (readLocation levels)).Reads v location :=
  h.reads ObjectForm.ne_null SourceLocation.IsWritten.reads

theorem reads_listForm {α : Type} (isWritten : α → Nat → Value → Prop) {reader : Nat → Reader α}
    (hread : ∀ {a levels v}, isWritten a levels v → (reader levels).Reads v a) {as : List α}
    {levels : Nat} {v : Value} (h : ListForm levels (fun levels values =>
      List.Forall₂ (fun v a => isWritten a levels v) values as) v) :
    (list levels (reader (levels - 1))).Reads v as := by
  obtain ⟨inner, values, rfl, rfl, hvalues⟩ := h
  exact reads_list inner (hvalues.imp fun _ _ => hread)

theorem FunctionKind.reads {kind : FunctionKind} {v : Value} (h : TextForm kind.word v)
    (levels : Nat) : (readKind levels).Reads v kind := by
  obtain rfl := h
  intro rest _
  have hword : FunctionKind.ofWord? kind.word = some kind := by cases kind <;> rfl
  have hstring := takes_string kind.word rest
  rw [Json.Reader.string_append] at hstring
  rw [Value.text, Json.Reader.string_append]
  refine (takes_peekToken? (by decide) _).bind (hstring.bind ?_)
  rw [hword]
  exact .pure _ _

def FunctionFields.of (function : MemberFunction) (keys : List String) : FunctionFields :=
  { name := given keys "name" function.name
    returnType := given keys "return_type" function.returnType.spelling
    params := given keys "params" function.params
    kind := given keys "kind" function.kind
    isStatic := given keys "is_static" function.isStatic
    doc := given keys "doc" function.doc
    markedOperator := given keys "is_operator" function.markedOperator
    location := given keys "location" function.location }

theorem FunctionFields.readsMembers {function : MemberFunction} {inner : Nat}
    {members : List (String × Value)} (h : function.HasMembers inner members) :
    ReadsMembers (FunctionFields.read inner) (fun done => .of function (keysOf done)) members := by
  rintro done ⟨key, v⟩ todo hsplit rest hrest
  have hboolean : ∀ {value : Bool} {v : Value}, v = .boolean value → boolean.Reads v value := by
    rintro value _ rfl
    exact reads_boolean value
  simp only [FunctionFields.read, Json.keysOf_concat]
  split
  · refine h.name.takes_field hsplit (fun v hv => hv.reads) ?_ hrest
    simp [of, given]
  · refine h.returnType.takes_field hsplit (fun v hv => hv.reads) ?_ hrest
    simp [of, given]
  · refine h.params.takes_field hsplit
      (fun v hv => reads_listForm Parameter.IsWritten Parameter.IsWritten.reads hv) ?_ hrest
    simp [of, given]
  · refine h.kind.takes_field hsplit (fun v hv => FunctionKind.reads hv inner) ?_ hrest
    simp [of, given]
  · refine h.isStatic.takes_field hsplit (fun v hv => hboolean hv) ?_ hrest
    simp [of, given]
  · refine h.doc.takes_field hsplit (fun v hv => hv.reads_text) ?_ hrest
    simp [of, given]
  · refine h.markedOperator.takes_field hsplit (fun v hv => hboolean hv) ?_ hrest
    simp [of, given]
  · refine h.location.takes_field hsplit (fun v hv => SourceLocation.reads_optional hv) ?_ hrest
    simp [of, given]
  · rename_i hname hreturn hparams hkind hstatic hdoc hoperator hlocation
    have hsame : of function (keysOf done ++ [key]) = of function (keysOf done) := by
      simp [of, given, Ne.symm hname, Ne.symm hreturn, Ne.symm hparams, Ne.symm hkind,
        Ne.symm hstatic, Ne.symm hdoc, Ne.symm hoperator, Ne.symm hlocation]
    rw [hsame]
    exact takes_unknownField _ v hrest

theorem FunctionFields.function_of {function : MemberFunction} {inner : Nat}
    {members : List (String × Value)} (h : function.HasMembers inner members) :
    (of function (keysOf members)).function function.name = function := by
  have hreturn : ((given (keysOf members) "return_type" function.returnType.spelling).map
      NativeType.mk).getD .void = function.returnType := by
    rw [NativeType.void, Option.getD_map]
    exact congrArg NativeType.mk h.returnType.getD_given
  simp only [FunctionFields.function, of, hreturn, h.params.getD_given, h.kind.getD_given,
    h.isStatic.getD_given, h.doc.getD_given, h.markedOperator.getD_given, h.location.getD_given]

theorem MemberFunction.IsWritten.reads {function : MemberFunction} {levels : Nat} {v : Value}
    (h : function.IsWritten levels v) : (readFunction levels).Reads v function := by
  obtain ⟨inner, members, rfl, rfl, hmembers⟩ := h
  have hname : (FunctionFields.of function (keysOf members)).name = some function.name :=
    hmembers.name.given_required _
  refine reads_record (FunctionFields.readsMembers hmembers) rfl ?_
  simp only [hname, required, pure_bind, FunctionFields.function_of hmembers]

def FunctionListForm (functions : List MemberFunction) (levels : Nat) : Value → Prop :=
  ListForm levels fun levels values =>
    List.Forall₂ (fun v function => function.IsWritten levels v) values functions

/-- The members that stand for a class, for a number of levels inside it. `nested` is the form of
the list of its nested classes. -/
structure NativeClass.HasMembers (c : NativeClass) (nested : Value → Prop) (inner : Nat)
    (members : List (String × Value)) : Prop where
  name : HasField members "name" (TextForm c.name) False
  constructors : HasField members "constructors" (FunctionListForm c.constructors inner)
    (c.constructors = [])
  functions : HasField members "functions" (FunctionListForm c.functions inner) (c.functions = [])
  classes : HasField members "classes" nested (c.classes = [])
  doc : HasField members "doc" (OptionForm TextForm c.doc) (c.doc = none)
  location : HasField members "location" (OptionForm (·.IsWritten inner) c.location)
    (c.location = none)

namespace NativeClass

mutual

def IsWritten : NativeClass → Nat → Value → Prop
  | ⟨name, constructors, functions, classes, doc, location⟩, levels =>
    ObjectForm levels fun inner =>
      HasMembers ⟨name, constructors, functions, classes, doc, location⟩
        (ListForm inner (areWritten classes)) inner

def areWritten : List NativeClass → Nat → List Value → Prop
  | [], _, values => values = []
  | c :: classes, levels, values =>
    ∃ v others, c.IsWritten levels v ∧ areWritten classes levels others ∧ values = v :: others

end

theorem isWritten_iff {c : NativeClass} {levels : Nat} {v : Value} :
    c.IsWritten levels v ↔ ObjectForm levels (fun inner =>
      c.HasMembers (ListForm inner (areWritten c.classes)) inner) v := by
  cases c
  rw [IsWritten]

end NativeClass

def ClassFields.of (c : NativeClass) (keys : List String) : ClassFields :=
  { name := given keys "name" c.name
    constructors := given keys "constructors" c.constructors
    functions := given keys "functions" c.functions
    classes := given keys "classes" c.classes
    doc := given keys "doc" c.doc
    location := given keys "location" c.location }

theorem ClassFields.readsMembers {c : NativeClass} {isNested : Value → Prop} {inner : Nat}
    {members : List (String × Value)} (h : c.HasMembers isNested inner members)
    {nested : Reader (List NativeClass)} (hnested : ∀ v, isNested v → nested.Reads v c.classes) :
    ReadsMembers (ClassFields.read inner nested) (fun done => .of c (keysOf done)) members := by
  rintro done ⟨key, v⟩ todo hsplit rest hrest
  have hfunctions : ∀ {functions : List MemberFunction} {v : Value},
      FunctionListForm functions inner v →
        (list inner (readFunction (inner - 1))).Reads v functions :=
    reads_listForm MemberFunction.IsWritten MemberFunction.IsWritten.reads
  simp only [ClassFields.read, Json.keysOf_concat]
  split
  · refine h.name.takes_field hsplit (fun v hv => hv.reads) ?_ hrest
    simp [of, given]
  · refine h.constructors.takes_field hsplit (fun v hv => hfunctions hv) ?_ hrest
    simp [of, given]
  · refine h.functions.takes_field hsplit (fun v hv => hfunctions hv) ?_ hrest
    simp [of, given]
  · refine h.classes.takes_field hsplit hnested ?_ hrest
    simp [of, given]
  · refine h.doc.takes_field hsplit (fun v hv => hv.reads_text) ?_ hrest
    simp [of, given]
  · refine h.location.takes_field hsplit (fun v hv => SourceLocation.reads_optional hv) ?_ hrest
    simp [of, given]
  · rename_i hname hconstructors hfunctions hclasses hdoc hlocation
    have hsame : of c (keysOf done ++ [key]) = of c (keysOf done) := by
      simp [of, given, Ne.symm hname, Ne.symm hconstructors, Ne.symm hfunctions,
        Ne.symm hclasses, Ne.symm hdoc, Ne.symm hlocation]
    rw [hsame]
    exact takes_unknownField _ v hrest

theorem ClassFields.nativeClass_of {c : NativeClass} {isNested : Value → Prop} {inner : Nat}
    {members : List (String × Value)} (h : c.HasMembers isNested inner members) :
    (of c (keysOf members)).nativeClass c.name = c := by
  cases c
  simp only [nativeClass, of, h.constructors.getD_given, h.functions.getD_given,
    h.classes.getD_given, h.doc.getD_given, h.location.getD_given]

theorem readClass_succ (inner : Nat) : readClass (inner + 1) =
    readClassWith (inner + 1) (list inner (readClass (inner - 1))) := by
  cases inner <;> rfl

theorem NativeClass.reads_of_areWritten {classes : List NativeClass} {levels : Nat}
    (h : ∀ c ∈ classes, ∀ {v}, c.IsWritten levels v → (readClass levels).Reads v c)
    {values : List Value} (hvalues : areWritten classes levels values) :
    List.Forall₂ (readClass levels).Reads values classes := by
  induction classes generalizing values with
  | nil =>
    obtain rfl := hvalues
    exact .nil
  | cons c classes ih =>
    obtain ⟨v, others, hv, hothers, rfl⟩ := hvalues
    rw [List.forall_mem_cons] at h
    exact .cons (h.1 hv) (ih h.2 hothers)

theorem NativeClass.reads_nested {classes : List NativeClass} {levels : Nat}
    (h : ∀ c ∈ classes, ∀ {levels v}, c.IsWritten levels v → (readClass levels).Reads v c)
    {v : Value} (hv : ListForm levels (areWritten classes) v) :
    (list levels (readClass (levels - 1))).Reads v classes := by
  obtain ⟨deeper, values, rfl, rfl, hvalues⟩ := hv
  exact reads_list deeper (reads_of_areWritten (fun c hc => h c hc) hvalues)

theorem NativeClass.IsWritten.reads {c : NativeClass} {levels : Nat} {v : Value}
    (h : c.IsWritten levels v) : (readClass levels).Reads v c := by
  induction c using NativeClass.nestedInduction generalizing levels v with
  | step c ih =>
    obtain ⟨inner, members, rfl, rfl, hmembers⟩ := NativeClass.isWritten_iff.mp h
    have hname : (ClassFields.of c (keysOf members)).name = some c.name :=
      hmembers.name.given_required _
    rw [readClass_succ]
    refine reads_record (ClassFields.readsMembers hmembers fun v hv =>
      NativeClass.reads_nested (fun c hc => ih c hc) hv) rfl ?_
    simp only [hname, required, pure_bind, ClassFields.nativeClass_of hmembers]

structure Declarations.HasMembers (tree : Declarations) (inner : Nat)
    (members : List (String × Value)) : Prop where
  header : HasField members "header" (OptionForm TextForm tree.header) (tree.header = none)
  classes : HasField members "classes" (ListForm inner (NativeClass.areWritten tree.classes))
    (tree.classes = [])

def Declarations.IsWritten (tree : Declarations) (levels : Nat) : Value → Prop :=
  ObjectForm levels tree.HasMembers

def TreeFields.of (tree : Declarations) (keys : List String) : TreeFields :=
  ⟨given keys "header" tree.header, given keys "classes" tree.classes⟩

theorem TreeFields.readsMembers {tree : Declarations} {inner : Nat}
    {members : List (String × Value)} (h : tree.HasMembers inner members) :
    ReadsMembers (TreeFields.read inner) (fun done => .of tree (keysOf done)) members := by
  rintro done ⟨key, v⟩ todo hsplit rest hrest
  have hclasses : ∀ v, ListForm inner (NativeClass.areWritten tree.classes) v →
      (list inner (readClass (inner - 1))).Reads v tree.classes :=
    fun _ => NativeClass.reads_nested fun _ _ => NativeClass.IsWritten.reads
  simp only [TreeFields.read, Json.keysOf_concat]
  split
  · refine h.header.takes_field hsplit (fun v hv => hv.reads_text) ?_ hrest
    simp [of, given]
  · refine h.classes.takes_field hsplit hclasses ?_ hrest
    simp [of, given]
  · rename_i hheader hclasses
    have hsame : of tree (keysOf done ++ [key]) = of tree (keysOf done) := by
      simp [of, given, Ne.symm hheader, Ne.symm hclasses]
    rw [hsame]
    exact takes_unknownField _ v hrest

theorem Declarations.IsWritten.reads {tree : Declarations} {levels : Nat} {v : Value}
    (h : tree.IsWritten levels v) : (readDeclarations levels).Reads v tree := by
  obtain ⟨inner, members, rfl, rfl, hmembers⟩ := h
  refine reads_record (TreeFields.readsMembers hmembers) rfl ?_
  simp only [TreeFields.declarations, TreeFields.of, hmembers.header.getD_given,
    hmembers.classes.getD_given]

/-- A text that stands for a tree is read as this tree. -/
theorem Declarations.ofText?_of_isWritten {tree : Declarations} {v : Value}
    (h : tree.IsWritten levelLimit v) :
    Declarations.ofText? (String.ofList v.text) = .ok tree := by
  have hread := h.reads [] (by rintro _ ⟨⟩)
  rw [List.append_nil] at hread
  exact run_of_takes hread

end NativeBindings
