import NativeBindings.Output.Layout
import NativeBindings.Policy.Admission
import NativeBindings.Policy.Naming
import NativeBindings.Text.Pieces

/-!
# Exports

An exported C function forwards to one native function, constructor or destructor. Types keep their
native spelling in it, except that references and wrapped classes passed by value become pointers at
the boundary; the call takes them apart again. One C++ file holds the exports of all classes.
-/

namespace NativeBindings

open Text

structure GlueParameter where
  type : String
  name : String
deriving DecidableEq, Repr, Inhabited

def GlueParameter.text (param : GlueParameter) : String := param.type ++ " " ++ param.name

/-- What an exported function forwards to. -/
inductive GlueCall where
  | construct (className : String)
  | callStatic (className function : String)
  | callInstance (function : String)
  | delete
deriving DecidableEq, Repr, Inhabited

/-- An exported function. -/
structure GlueFunction where
  exportName : String
  returnType : String
  params : List GlueParameter
  call : GlueCall
  /-- What is handed to the native function, in the order of its parameters. -/
  args : List String
deriving DecidableEq, Repr, Inhabited

namespace GlueFunction

/-- The forwarded call has a value. -/
def returnsValue (function : GlueFunction) : Bool :=
  match function.call with
  | .construct _ => true
  | .delete => false
  | .callStatic _ _ | .callInstance _ => trim function.returnType.toList != "void".toList

def statement (function : GlueFunction) : String :=
  let args := ", ".intercalate function.args
  let result := if function.returnsValue then "return " else ""
  match function.call with
  | .construct className => "return new " ++ className ++ "(" ++ args ++ ");"
  | .callStatic className name => result ++ className ++ "::" ++ name ++ "(" ++ args ++ ");"
  | .callInstance name => result ++ "target->" ++ name ++ "(" ++ args ++ ");"
  | .delete => "delete target;"

def text (function : GlueFunction) : String :=
  "EXPORTS(" ++ function.returnType ++ ") " ++ function.exportName ++ "(" ++
    ", ".intercalate (function.params.map (·.text)) ++ ") \x7b " ++ function.statement ++ " \x7d"

end GlueFunction

/-- The exported functions of one class. -/
structure GlueClass where
  qualifiedName : String
  functions : List GlueFunction
  /-- Deletes an object; every class has it. -/
  dispose : GlueFunction
deriving DecidableEq, Repr, Inhabited

namespace GlueClass

/-- All exported names, the one of the destructor last. -/
def exportNames (c : GlueClass) : List String :=
  c.functions.map (·.exportName) ++ [c.dispose.exportName]

end GlueClass

namespace ScopedClass

/-- Export name of a function: the class name, a mark for static functions, and its own name. -/
def exportName (c : ScopedClass) (function : MemberFunction) : String :=
  let mark := if function.isStatic && !function.isConstructor then "s_" else ""
  c.name ++ "_" ++ mark ++ function.name

def disposeName (c : ScopedClass) : String := c.name ++ "_Dispose"

def pointerSpelling (c : ScopedClass) : String := c.qualifiedName ++ "*"

/-- The handle that instance exports take first. -/
def glueHandle (c : ScopedClass) : GlueParameter := ⟨c.pointerSpelling, handleParameter⟩

def glueDispose (c : ScopedClass) : GlueFunction :=
  ⟨c.disposeName, "void", [c.glueHandle], .delete, []⟩

end ScopedClass

namespace WrapperIndex

/-- A parameter at the boundary, with what the call makes of it. -/
def glueParameter (index : WrapperIndex) (param : Parameter) (position : Nat) :
    GlueParameter × String :=
  let name := parameterName param.name position
  let spelling := trimEnd param.type.spelling.toList
  match withoutLast? '&' spelling with
  | some referenced => (⟨String.ofList (trimEnd referenced) ++ "*", name⟩, "*" ++ name)
  | none =>
    if index.isWrapped param.type && param.type.pointerDepth == 0 then
      (⟨String.ofList spelling ++ "*", name⟩, "*" ++ name)
    else (⟨String.ofList spelling, name⟩, name)

def glueParameters (index : WrapperIndex) (function : MemberFunction) :
    List (GlueParameter × String) :=
  function.params.mapIdx fun position param => index.glueParameter param position

def glueFunction (index : WrapperIndex) (c : ScopedClass) (function : MemberFunction) :
    GlueFunction :=
  let params := index.glueParameters function
  { exportName := c.exportName function
    returnType :=
      if function.isConstructor then c.pointerSpelling else function.returnType.spelling
    params := (if function.isInstance then [c.glueHandle] else []) ++ params.map (·.1)
    call :=
      if function.isConstructor then .construct c.qualifiedName
      else if function.isStatic then .callStatic c.qualifiedName function.name
      else .callInstance function.name
    args := params.map (·.2) }

end WrapperIndex

/-- A C++ file that includes one header. -/
structure GlueDocument where
  headerInclude : String
  classes : List GlueClass
deriving Repr, Inhabited

namespace GlueDocument

/-- What stands before the first class: the header and the export marker of each platform. -/
def opening (headerInclude : String) : List LayoutStep :=
  [.line autogeneratedBanner, .line ("#include \"" ++ headerInclude ++ "\""), .blank,
    .line "#if (defined WIN32 || defined _WIN32)",
    .line "#define EXPORTS(returntype) extern \"C\" __declspec(dllexport) returntype __cdecl",
    .line "#else",
    .line ("#define EXPORTS(returntype) extern \"C\" " ++
      "__attribute__((visibility(\"default\"))) returntype"),
    .line "#endif"]

def classSection (c : GlueClass) : List LayoutStep :=
  [.blank, .line ("/* " ++ c.qualifiedName ++ " */")] ++
    c.functions.map (fun function => .line function.text) ++ [.line c.dispose.text]

def layout (document : GlueDocument) : List LayoutStep :=
  opening document.headerInclude ++ document.classes.flatMap classSection

def text (document : GlueDocument) : String := layoutText document.layout

end GlueDocument

end NativeBindings
