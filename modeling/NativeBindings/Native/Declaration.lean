import NativeBindings.Native.Type

/-!
# Declarations

What a header declares, as far as bindings are concerned: classes with their constructors, member
functions and nested classes. Everything is kept in declaration order.

A tree of declarations is read as a list of classes, each with the chain of classes around it. A
class comes before what is nested in it, and siblings keep their order. Generation relies on names
that are not blank, on types that have a spelling, and on sibling classes with different names. The
first fault met from the root down, class by class, is reported.
-/

namespace NativeBindings

open Text

/-- Where something was declared. Lines and columns count from one; zero is unknown. -/
structure SourceLocation where
  file : Option String
  line : UInt32
  column : UInt32
deriving DecidableEq, Repr, Inhabited

namespace SourceLocation

/-- The file, `<unknown>` if there is none, with line and column behind it. -/
def text (location : SourceLocation) : String :=
  location.file.getD "<unknown>" ++ ":" ++ toString location.line.toNat ++ ":" ++
    toString location.column.toNat

end SourceLocation

/-- A parameter of a function; its name may be empty. -/
structure Parameter where
  name : String
  type : NativeType
deriving DecidableEq, Repr, Inhabited

inductive FunctionKind where
  | method
  | constructor
deriving DecidableEq, Repr, Inhabited

/-- A member function or a constructor. -/
structure MemberFunction where
  name : String
  returnType : NativeType
  params : List Parameter
  kind : FunctionKind
  isStatic : Bool
  doc : Option String
  /-- The header marks the function as an operator, whatever its name. -/
  markedOperator : Bool
  location : Option SourceLocation
deriving DecidableEq, Repr, Inhabited

namespace MemberFunction

def method (name : String) (returnType : NativeType) : MemberFunction :=
  ⟨name, returnType, [], .method, false, none, false, none⟩

def constructor (className : String) : MemberFunction :=
  { method className .void with kind := .constructor }

def addParameter (function : MemberFunction) (param : Parameter) : MemberFunction :=
  { function with params := function.params ++ [param] }

/-- The function as a constructor, whatever it was. -/
def asConstructor (function : MemberFunction) : MemberFunction :=
  { function with kind := .constructor }

def isConstructor (function : MemberFunction) : Bool := function.kind == .constructor

/-- Is an operator, by its mark or by its name. -/
def isOperator (function : MemberFunction) : Bool :=
  function.markedOperator || "operator".toList.isPrefixOf function.name.toList

/-- Is called on an object: neither static nor a constructor. -/
def isInstance (function : MemberFunction) : Bool :=
  !function.isStatic && !function.isConstructor

end MemberFunction

/-- A class and everything declared in it. -/
structure NativeClass where
  name : String
  constructors : List MemberFunction
  functions : List MemberFunction
  classes : List NativeClass
  doc : Option String
  location : Option SourceLocation
deriving Repr, Inhabited

namespace NativeClass

def ofName (name : String) : NativeClass := ⟨name, [], [], [], none, none⟩

def addConstructor (c : NativeClass) (function : MemberFunction) : NativeClass :=
  { c with constructors := c.constructors ++ [function.asConstructor] }

def addFunction (c : NativeClass) (function : MemberFunction) : NativeClass :=
  { c with functions := c.functions ++ [function] }

def addClass (c nested : NativeClass) : NativeClass :=
  { c with classes := c.classes ++ [nested] }

/-- The functions of a class in the order in which they are looked at. -/
def members (c : NativeClass) : List MemberFunction := c.constructors ++ c.functions

mutual

/-- The class with everything listed as a constructor made one, at every depth. -/
def normalized : NativeClass → NativeClass
  | ⟨name, constructors, functions, classes, doc, location⟩ =>
    ⟨name, constructors.map (·.asConstructor), functions, normalizedAll classes, doc, location⟩

def normalizedAll : List NativeClass → List NativeClass
  | [] => []
  | c :: rest => c.normalized :: normalizedAll rest

end

theorem normalizedAll_eq_map (classes : List NativeClass) :
    normalizedAll classes = classes.map normalized := by
  induction classes with
  | nil => simp [normalizedAll]
  | cons c rest ih => simp [normalizedAll, ih]

end NativeClass

/-- The classes of one header. -/
structure Declarations where
  header : Option String
  classes : List NativeClass
deriving Repr, Inhabited

namespace Declarations

def empty : Declarations := ⟨none, []⟩

def addClass (tree : Declarations) (c : NativeClass) : Declarations :=
  { tree with classes := tree.classes ++ [c] }

def normalized (tree : Declarations) : Declarations :=
  { tree with classes := NativeClass.normalizedAll tree.classes }

end Declarations

/-- Names of a chain of scopes, written with `::` between them. -/
def scopePath (names : List String) : String := "::".intercalate names

/-- A class with the names of the classes around it, outermost first. -/
structure ScopedClass where
  decl : NativeClass
  enclosing : List String
deriving Repr, Inhabited

namespace ScopedClass

def name (c : ScopedClass) : String := c.decl.name

/-- The chain of names from the outermost class down to the class itself. -/
def path (c : ScopedClass) : List String := c.enclosing ++ [c.name]

/-- The whole chain, such as `Outer::Inner`. -/
def qualifiedName (c : ScopedClass) : String := scopePath c.path

def isNested (c : ScopedClass) : Bool := !c.enclosing.isEmpty

end ScopedClass

/-- The chains that are left when names are dropped from the front, down to the last name. -/
def innerChains : List String → List (List String)
  | [] => []
  | name :: rest => (name :: rest) :: innerChains rest

/-- The chains that lead to each name from the front. -/
def outerChains : List String → List (List String)
  | [] => []
  | name :: rest => [name] :: (outerChains rest).map (name :: ·)

namespace ScopedClass

/-- Every spelling that names the class from some scope, from the whole chain down to its bare
name. -/
def scopedNames (c : ScopedClass) : List String := (innerChains c.path).map scopePath

/-- The qualified names of the classes around it, outermost first. -/
def ancestors (c : ScopedClass) : List String := (outerChains c.enclosing).map scopePath

end ScopedClass

namespace NativeClass

mutual

/-- The class and everything nested in it, inside the given chain. -/
def inScope (enclosing : List String) : NativeClass → List ScopedClass
  | ⟨name, constructors, functions, classes, doc, location⟩ =>
    ⟨⟨name, constructors, functions, classes, doc, location⟩, enclosing⟩ ::
      allInScope (enclosing ++ [name]) classes

def allInScope (enclosing : List String) : List NativeClass → List ScopedClass
  | [] => []
  | c :: rest => c.inScope enclosing ++ allInScope enclosing rest

end

end NativeClass

/-- All classes of a tree in their scopes. -/
def Declarations.scopedClasses (tree : Declarations) : List ScopedClass :=
  NativeClass.allInScope [] tree.classes

/-- A fault in a tree of declarations, with the scope and the location of what is at fault. -/
inductive DeclarationFault where
  | emptyClassName (scope : String) (location : Option SourceLocation)
  | duplicateClass (scope name : String) (location : Option SourceLocation)
  | emptyFunctionName (owner : String) (location : Option SourceLocation)
  | emptyTypeName (owner function : String) (location : Option SourceLocation)
deriving DecidableEq, Repr

namespace DeclarationFault

/-- A location in front of a message; nothing if it is not known. -/
def locationLabel : Option SourceLocation → String
  | some location => location.text ++ ": "
  | none => ""

def message : DeclarationFault → String
  | emptyClassName scope location =>
    locationLabel location ++ "class with an empty name in `" ++ scope ++ "`"
  | duplicateClass scope name location =>
    locationLabel location ++ "duplicate class `" ++ name ++ "` in `" ++ scope ++ "`"
  | emptyFunctionName owner location =>
    locationLabel location ++ "function with an empty name in class `" ++ owner ++ "`"
  | emptyTypeName owner function location =>
    locationLabel location ++ "unresolvable type in `" ++ owner ++ "::" ++ function ++ "`"

end DeclarationFault

/-- Name of the scope that holds the top-level classes. -/
def rootScope : String := "<root>"

def innerScope (scope name : String) : String :=
  if scope = rootScope then name else scope ++ "::" ++ name

/-- A function needs a name, every parameter a type, and all but constructors a return type. -/
def MemberFunction.validate (function : MemberFunction) (owner : String) :
    Except DeclarationFault Unit :=
  if isAllBlank function.name then .error (.emptyFunctionName owner function.location)
  else if (!function.isConstructor && isAllBlank function.returnType.spelling) ||
      function.params.any fun param => isAllBlank param.type.spelling then
    .error (.emptyTypeName owner function.name function.location)
  else .ok ()

def validateFunctions (owner : String) : List MemberFunction → Except DeclarationFault Unit
  | [] => .ok ()
  | function :: rest =>
    match function.validate owner with
    | .error fault => .error fault
    | .ok () => validateFunctions owner rest

mutual

/-- Validates one class and all that is nested in it; `earlier` are the names of the siblings before
it. -/
def NativeClass.validate (scope : String) (earlier : List String) :
    NativeClass → Except DeclarationFault Unit
  | ⟨name, constructors, functions, classes, _, location⟩ =>
    if isAllBlank name then .error (.emptyClassName scope location)
    else if earlier.contains name then .error (.duplicateClass scope name location)
    else
      match validateFunctions (innerScope scope name) (constructors ++ functions) with
      | .error fault => .error fault
      | .ok () => validateSiblings (innerScope scope name) [] classes

/-- Validates the classes of one scope; `earlier` are the names of those before them. -/
def validateSiblings (scope : String) (earlier : List String) :
    List NativeClass → Except DeclarationFault Unit
  | [] => .ok ()
  | c :: rest =>
    match c.validate scope earlier with
    | .error fault => .error fault
    | .ok () => validateSiblings scope (c.name :: earlier) rest

end

def Declarations.validate (tree : Declarations) : Except DeclarationFault Unit :=
  validateSiblings rootScope [] tree.classes

end NativeBindings
