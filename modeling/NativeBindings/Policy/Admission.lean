import NativeBindings.Native.Declaration
import NativeBindings.Text.Pieces

/-!
# Admission

What gets a binding. A class is denied by an entry of the denylist that equals one of its scoped
names, a function by an entry that occurs in one of its types. Of the constructors at most one is
bound, since exports cannot be overloaded. Whether a function can be bound is decided by its
signature alone: operators are refused first, then the parameters are looked at in order, and last
the return type. Every declaration that gets no binding has a reason, which the report prints.
-/

namespace NativeBindings

open Text

/-- Why a class or a function is left out. -/
inductive SkipReason where
  /-- The class is denied, or stands inside one that is. -/
  | ignored
  | ignoredParameter (parameter typeName entry : String)
  | ignoredReturn (typeName entry : String)
  | operator
  | extraConstructor
  | constructorPolicy
  | unsupportedReference (parameter typeName : String)
  | unsupportedReturn (typeName : String)
  /-- An earlier declaration has the export name already. -/
  | duplicateExport (exportName : String)
deriving DecidableEq, Repr

def SkipReason.message : SkipReason → String
  | ignored => "on the denylist"
  | ignoredParameter parameter typeName entry =>
    "parameter `" ++ parameter ++ "` of type `" ++ typeName ++ "` matches denylist entry `" ++
      entry ++ "`"
  | ignoredReturn typeName entry =>
    "return type `" ++ typeName ++ "` matches denylist entry `" ++ entry ++ "`"
  | operator => "operator overload"
  | extraConstructor => "only the first constructor is bound"
  | constructorPolicy => "constructors are not bound"
  | unsupportedReference parameter typeName =>
    "parameter `" ++ parameter ++ "` has unsupported reference type `" ++ typeName ++ "`"
  | unsupportedReturn typeName => "unsupported return type `" ++ typeName ++ "`"
  | duplicateExport exportName => "export `" ++ exportName ++ "` is already defined"

/-- Names to leave out, in the order in which they are looked at. -/
structure Denylist where
  entries : List String
deriving DecidableEq, Repr, Inhabited

namespace Denylist

def contains (denylist : Denylist) (name : String) : Bool := denylist.entries.contains name

/-- The first entry that occurs in a type spelling. -/
def firstMatch? (denylist : Denylist) (spelling : String) : Option String :=
  denylist.entries.find? fun entry => occursIn entry.toList spelling.toList

def matchesType (denylist : Denylist) (spelling : String) : Bool :=
  (denylist.firstMatch? spelling).isSome

/-- One of the scoped names of the class is on the list. -/
def deniesClass (denylist : Denylist) (c : ScopedClass) : Bool :=
  c.scopedNames.any denylist.contains

end Denylist

/-- Which declared constructor is bound. -/
inductive ConstructorPolicy where
  | firstDeclared
  | noConstructor
deriving DecidableEq, Repr, Inhabited

namespace ConstructorPolicy

def bound? : ConstructorPolicy → List MemberFunction → Option MemberFunction
  | firstDeclared, constructors => constructors.head?
  | noConstructor, _ => none

/-- The constructors that are left out. -/
def dropped : ConstructorPolicy → List MemberFunction → List MemberFunction
  | firstDeclared, constructors => constructors.tail
  | noConstructor, constructors => constructors

/-- Nothing is lost between the two. -/
theorem bound?_append_dropped (policy : ConstructorPolicy) (constructors : List MemberFunction) :
    (policy.bound? constructors).toList ++ policy.dropped constructors = constructors := by
  cases policy <;> cases constructors <;> simp [bound?, dropped]

end ConstructorPolicy

/-- Wrapper names of native names; each native name is entered at most once. -/
structure WrapperIndex where
  entries : List (String × String)
deriving Repr, Inhabited

namespace WrapperIndex

def empty : WrapperIndex := ⟨[]⟩

/-- The wrapper entered under a name. -/
def find? (index : WrapperIndex) (name : String) : Option String := index.entries.lookup name

def put (index : WrapperIndex) (name wrapper : String) : WrapperIndex :=
  ⟨(name, wrapper) :: index.entries.filter (·.1 ≠ name)⟩

/-- Enters a wrapper under a name that has none yet. -/
def putNew (index : WrapperIndex) (name wrapper : String) : WrapperIndex :=
  if (index.find? name).isSome then index else index.put name wrapper

/-- Enters a class. An earlier class keeps its hold on a name without scopes; a qualified name goes
to the latest class. -/
def insert (index : WrapperIndex) (c : ScopedClass) (wrapper : String) : WrapperIndex :=
  (index.putNew c.name wrapper).put c.qualifiedName wrapper

def ofList (classes : List (ScopedClass × String)) : WrapperIndex :=
  classes.foldl (fun index (c, wrapper) => index.insert c wrapper) empty

def wrapperFor? (index : WrapperIndex) (type : NativeType) : Option String :=
  index.find? type.baseName

def isWrapped (index : WrapperIndex) (type : NativeType) : Bool := (index.wrapperFor? type).isSome

def size (index : WrapperIndex) : Nat := index.entries.length

def isEmpty (index : WrapperIndex) : Bool := index.entries.isEmpty

end WrapperIndex

/-- What admission consults: the denylist and the classes with wrappers. -/
structure Admission where
  denylist : Denylist
  index : WrapperIndex

namespace Admission

/-- A parameter type that cannot cross the boundary: an rvalue reference, a reference to a pointer,
or a pointer to a pointer to a wrapped class. -/
def isUnsupportedParameter (admission : Admission) (type : NativeType) : Bool :=
  type.isRvalueReference || (admission.index.isWrapped type && type.pointerDepth > 1) ||
    (type.isReference && type.pointerDepth > 0)

/-- A return type that cannot cross the boundary: any reference, and a wrapped class unless it is
behind exactly one pointer. -/
def isUnsupportedReturn (admission : Admission) (type : NativeType) : Bool :=
  type.isReference || type.isRvalueReference ||
    (admission.index.isWrapped type && type.pointerDepth != 1)

def parameterFault? (admission : Admission) (param : Parameter) : Option SkipReason :=
  match admission.denylist.firstMatch? param.type.spelling with
  | some entry => some (.ignoredParameter param.name param.type.spelling entry)
  | none =>
    if admission.isUnsupportedParameter param.type then
      some (.unsupportedReference param.name param.type.spelling)
    else none

def returnFault? (admission : Admission) (type : NativeType) : Option SkipReason :=
  match admission.denylist.firstMatch? type.spelling with
  | some entry => some (.ignoredReturn type.spelling entry)
  | none =>
    if admission.isUnsupportedReturn type then some (.unsupportedReturn type.spelling) else none

/-- What speaks against a function; nothing if it can be bound. The declared return type of a
constructor does not matter. -/
def fault? (admission : Admission) (function : MemberFunction) : Option SkipReason :=
  if function.isOperator then some .operator
  else
    match function.params.findSome? admission.parameterFault? with
    | some reason => some reason
    | none => if function.isConstructor then none else admission.returnFault? function.returnType

end Admission

end NativeBindings
