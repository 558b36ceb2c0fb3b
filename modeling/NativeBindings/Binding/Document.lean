import NativeBindings.Glue.Exports
import NativeBindings.Host.Type
import NativeBindings.Output.Layout
import NativeBindings.Policy.Naming
import NativeBindings.Text.Pieces

/-!
# Bindings

The C# file with one disposable wrapper class for each native class. Each member of a wrapper class
is a constructor, method or property that calls one import, the C# declaration of an export.

A plan says how a parameter or result crosses the boundary: wrapped classes as handles, other
references by `ref`, truth values as single bytes, and integers as wide as a pointer as `IntPtr`.
-/

namespace NativeBindings

open Text

structure ImportParameter where
  type : String
  name : String
  /-- Argument of the marshalling attribute. -/
  marshalAs : Option String
deriving DecidableEq, Repr, Inhabited

def ImportParameter.text (param : ImportParameter) : String :=
  let declared := param.type ++ " " ++ param.name
  match param.marshalAs with
  | some unmanaged => "[MarshalAs(" ++ unmanaged ++ ")] " ++ declared
  | none => declared

/-- Declaration of one exported function. -/
structure ImportDeclaration where
  exportName : String
  returnType : String
  params : List ImportParameter
deriving DecidableEq, Repr, Inhabited

def ImportDeclaration.text (decl : ImportDeclaration) (nativeLibrary : String) : String :=
  "[DllImport(" ++ nativeLibrary ++ ", CallingConvention = CallingConvention.Cdecl)]\n" ++
    "private static extern " ++ decl.returnType ++ " " ++ decl.exportName ++ "(" ++
    ", ".intercalate (decl.params.map (·.text)) ++ ");"

inductive WrapperKind where
  | constructor
  | method
  | property
deriving DecidableEq, Repr, Inhabited

/-- What is done to the result of the import. -/
inductive ResultConversion where
  | unchanged
  /-- A byte becomes a truth value. -/
  | toBool
  /-- An integer as wide as a pointer becomes a long. -/
  | toLong
deriving DecidableEq, Repr, Inhabited

structure WrapperParameter where
  type : String
  name : String
deriving DecidableEq, Repr, Inhabited

def WrapperParameter.text (param : WrapperParameter) : String := param.type ++ " " ++ param.name

/-- A member that calls one import. -/
structure WrapperMember where
  name : String
  kind : WrapperKind
  isStatic : Bool
  returnType : Option String
  params : List WrapperParameter
  target : String
  args : List String
  conversion : ResultConversion
  doc : Option String
deriving DecidableEq, Repr, Inhabited

/-- A summary comment. It is written even if there is nothing to say; otherwise every line of the
documentation becomes a comment line without blanks at its end. -/
def summaryComment (doc : Option String) : String :=
  let described :=
    match doc with
    | some doc => if isAllBlank doc then [] else lines doc.toList
    | none => []
  "/// <summary>\n" ++
    String.join (described.map fun line => "/// " ++ String.ofList (trimEnd line) ++ "\n") ++
    "/// </summary>\n"

namespace WrapperMember

def importCall (m : WrapperMember) : String :=
  m.target ++ "(" ++ ", ".intercalate m.args ++ ")"

/-- The expression that the member stands for. -/
def body (m : WrapperMember) : String :=
  match m.kind, m.conversion with
  | .constructor, _ => "this.Handle = " ++ m.importCall
  | _, .toBool => m.importCall ++ " > 0"
  | _, .toLong => "(long)" ++ m.importCall
  | _, .unchanged => m.importCall

/-- Name and parameters; a property has no parameter list. -/
def head (m : WrapperMember) : String :=
  match m.kind with
  | .property => m.name
  | .constructor | .method => m.name ++ "(" ++ ", ".intercalate (m.params.map (·.text)) ++ ")"

/-- The declaration on one line. -/
def signature (m : WrapperMember) : String :=
  let modifiers := if m.isStatic then "public static" else "public"
  let result :=
    match m.returnType with
    | some type => " " ++ type
    | none => ""
  modifiers ++ result ++ " " ++ m.head ++ " => " ++ m.body ++ ";"

def text (m : WrapperMember) : String := summaryComment m.doc ++ m.signature

end WrapperMember

structure BoundMember where
  importDecl : ImportDeclaration
  wrapper : WrapperMember
deriving DecidableEq, Repr, Inhabited

/-- A disposable wrapper class that owns a handle. -/
structure BindingClass where
  wrapperName : String
  members : List BoundMember
  /-- Import of the export that deletes an object. -/
  dispose : ImportDeclaration
deriving DecidableEq, Repr, Inhabited

namespace BindingClass

/-- The handle and the constructor that takes one. -/
def handleLayout (c : BindingClass) : List LayoutStep :=
  [.block (summaryComment (some "Pointer to the underlying native object")),
    .line "public void* Handle \x7b get; private set; \x7d", .blank,
    .block (summaryComment (some ("Create " ++ c.wrapperName ++ " from a native pointer"))),
    .line ("public " ++ c.wrapperName ++ "(void* handle) => this.Handle = handle;"), .blank]

def importLayout (c : BindingClass) (nativeLibrary : String) : List LayoutStep :=
  [.line "#region DllImports"] ++
    List.intercalate [.blank]
      (c.members.map fun m => [.block (m.importDecl.text nativeLibrary)]) ++
    [.line "#endregion", .blank]

/-- Disposal: under a lock, the native object is deleted unless that has happened already. -/
def disposeLayout (c : BindingClass) (nativeLibrary : String) : List LayoutStep :=
  [.line "private readonly object disposeSync = new object();", .blank,
    .line "public void Dispose()", .opening "\x7b",
    .line "if (Handle != (void*) IntPtr.Zero)", .opening "\x7b",
    .line "lock (disposeSync)", .opening "\x7b",
    .line "if (Handle != (void*) IntPtr.Zero)", .opening "\x7b",
    .line (c.dispose.exportName ++ "(Handle);"),
    .line "Handle = (void*) IntPtr.Zero;",
    .closing "\x7d", .closing "\x7d", .closing "\x7d",
    .line "GC.SuppressFinalize(this);", .closing "\x7d", .blank,
    .line ("~" ++ c.wrapperName ++ "() => Dispose();"), .blank,
    .block (c.dispose.text nativeLibrary)]

def layout (c : BindingClass) (nativeLibrary : String) : List LayoutStep :=
  [.line ("public unsafe partial class " ++ c.wrapperName ++ " : IDisposable"),
      .opening "\x7b"] ++
    c.handleLayout ++
    c.members.flatMap (fun m => [.block m.wrapper.text, .blank]) ++
    c.importLayout nativeLibrary ++
    c.disposeLayout nativeLibrary ++
    [.closing "\x7d"]

def text (c : BindingClass) (nativeLibrary : String) : String :=
  layoutText (c.layout nativeLibrary)

end BindingClass

/-- A C# file with wrapper classes in one namespace. -/
structure BindingDocument where
  namespaceName : String
  /-- The expression that holds the name of the native library. -/
  nativeLibrary : String
  classes : List BindingClass
deriving Repr, Inhabited

namespace BindingDocument

/-- What stands before the first class. -/
def opening (namespaceName : String) : List LayoutStep :=
  [.line autogeneratedBanner, .blank, .line "using System;",
    .line "using System.Runtime.InteropServices;", .blank,
    .line ("namespace " ++ namespaceName), .opening "\x7b"]

/-- The whole document; classes have an empty line between them. -/
def layout (document : BindingDocument) : List LayoutStep :=
  opening document.namespaceName ++
    List.intercalate [.blank]
      (document.classes.map fun c => [.block (c.text document.nativeLibrary)]) ++
    [.closing "\x7d"]

def text (document : BindingDocument) : String := layoutText document.layout

end BindingDocument

/-- What emission of bindings consults. -/
structure BindingRules where
  aliases : AliasTable
  naming : NamingPolicy
  index : WrapperIndex

def handleType : String := "void*"

/-- Marshals a truth value as one byte. -/
def boolMarshal : String := "UnmanagedType.U1"

/-- How a parameter crosses the boundary. -/
structure ParameterPlan where
  imported : ImportParameter
  wrapper : WrapperParameter
  /-- What the wrapper hands to the import. -/
  argument : String

/-- How a result crosses the boundary. -/
structure ResultPlan where
  imported : String
  wrapper : String
  conversion : ResultConversion

/-- The handle that instance imports take first. -/
def importHandle : ImportParameter := ⟨handleType, handleParameter, none⟩

namespace ParameterPlan

/-- An object of a wrapped class, handed over by its handle. -/
def ofWrapped (wrapper name : String) : ParameterPlan :=
  ⟨⟨handleType, name, none⟩, ⟨wrapper, name⟩, name ++ ".Handle"⟩

/-- A reference to a value of a host type. -/
def ofReference (host name : String) : ParameterPlan :=
  if host = "bool" then ⟨⟨"ref bool", name, some boolMarshal⟩, ⟨"ref bool", name⟩, "ref " ++ name⟩
  else if isNativeInt host then
    ⟨⟨"ref IntPtr", name, none⟩, ⟨"ref IntPtr", name⟩, "ref " ++ name⟩
  else ⟨⟨"ref " ++ host, name, none⟩, ⟨"ref " ++ host, name⟩, "ref " ++ name⟩

def ofValue (host name : String) : ParameterPlan :=
  if host = "bool" then ⟨⟨"bool", name, some boolMarshal⟩, ⟨"bool", name⟩, name⟩
  else if isNativeInt host then ⟨⟨"IntPtr", name, none⟩, ⟨"long", name⟩, "(IntPtr)" ++ name⟩
  else ⟨⟨host, name, none⟩, ⟨host, name⟩, name⟩

end ParameterPlan

namespace ResultPlan

/-- A pointer to an object of a wrapped class. -/
def handle : ResultPlan := ⟨handleType, handleType, .unchanged⟩

def ofValue (host : String) : ResultPlan :=
  if host = "bool" then ⟨"byte", "bool", .toBool⟩
  else if isNativeInt host then ⟨"IntPtr", "long", .toLong⟩
  else ⟨host, host, .unchanged⟩

end ResultPlan

namespace BindingRules

def wrapperName (rules : BindingRules) (c : ScopedClass) : String := rules.aliases.hostName c.name

/-- The plan for the parameter at a position. -/
def planParameter (rules : BindingRules) (param : Parameter) (position : Nat) : ParameterPlan :=
  let name := hostIdentifier (parameterName param.name position)
  match rules.index.wrapperFor? param.type with
  | some wrapper => .ofWrapped wrapper name
  | none =>
    let host := rules.aliases.hostType param.type
    if param.type.isReference then .ofReference host name else .ofValue host name

def planResult (rules : BindingRules) (type : NativeType) : ResultPlan :=
  if rules.index.isWrapped type then .handle else .ofValue (rules.aliases.hostType type)

def planParameters (rules : BindingRules) (function : MemberFunction) : List ParameterPlan :=
  function.params.mapIdx fun position param => rules.planParameter param position

/-- The import of a function with a given export name. -/
def importFunction (rules : BindingRules) (function : MemberFunction) (exportName : String) :
    ImportDeclaration :=
  { exportName
    returnType :=
      if function.isConstructor then handleType else (rules.planResult function.returnType).imported
    params := (if function.isInstance then [importHandle] else []) ++
      (rules.planParameters function).map (·.imported) }

def wrapFunction (rules : BindingRules) (c : ScopedClass) (function : MemberFunction)
    (exportName : String) : WrapperMember :=
  let plans := rules.planParameters function
  let params := plans.map (·.wrapper)
  let args := (if function.isInstance then ["this.Handle"] else []) ++ plans.map (·.argument)
  if function.isConstructor then
    { name := rules.wrapperName c, kind := .constructor, isStatic := false, returnType := none
      params, target := exportName, args, conversion := .unchanged, doc := function.doc }
  else
    let result := rules.planResult function.returnType
    { name := rules.naming.memberName function.name function.isStatic
      kind := if rules.naming.isProperty function then .property else .method
      isStatic := function.isStatic, returnType := some result.wrapper
      params, target := exportName, args, conversion := result.conversion, doc := function.doc }

def bindFunction (rules : BindingRules) (c : ScopedClass) (function : MemberFunction)
    (exportName : String) : BoundMember :=
  ⟨rules.importFunction function exportName, rules.wrapFunction c function exportName⟩

end BindingRules

def ScopedClass.importDispose (c : ScopedClass) : ImportDeclaration :=
  ⟨c.disposeName, "void", [importHandle]⟩

end NativeBindings
