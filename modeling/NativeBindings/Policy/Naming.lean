import NativeBindings.Native.Declaration
import NativeBindings.Text.Pieces
import NativeBindings.Text.Uppercase

/-!
# Names of parameters and members

Parameters keep their native names where they can. Unnamed ones are numbered, one that would hide
the handle is renamed, and C# keywords are written with `@`. Native names of functions are words
joined by underscores; a member writes the words together, each with a capital first letter, unless
a rename rule gives it another name. The same policy decides which members become properties.
-/

namespace NativeBindings

open Text

def hostKeywords : List String :=
  ["abstract", "as", "base", "bool", "break", "byte", "case", "catch", "char", "checked", "class",
    "const", "continue", "decimal", "default", "delegate", "do", "double", "else", "enum", "event",
    "explicit", "extern", "false", "finally", "fixed", "float", "for", "foreach", "goto", "if",
    "implicit", "in", "int", "interface", "internal", "is", "lock", "long", "namespace", "new",
    "null", "object", "operator", "out", "override", "params", "private", "protected", "public",
    "readonly", "ref", "return", "sbyte", "sealed", "short", "sizeof", "stackalloc", "static",
    "string", "struct", "switch", "this", "throw", "true", "try", "typeof", "uint", "ulong",
    "unchecked", "unsafe", "ushort", "using", "virtual", "void", "volatile", "while"]

/-- A name as a C# identifier: a keyword is written with `@`. -/
def hostIdentifier (name : String) : String :=
  if hostKeywords.contains name then "@" ++ name else name

/-- Name of the leading handle parameter of instance exports. -/
def handleParameter : String := "target"

/-- The exported name of the parameter at a position: its declared name without blanks around it,
a numbered one if that is empty, and one with an underscore if it would hide the handle. -/
def parameterName (declared : String) (position : Nat) : String :=
  let name := String.ofList (trim declared.toList)
  if name.isEmpty then "arg" ++ toString position
  else if name = handleParameter then handleParameter ++ "_"
  else name

def capitalized : List Char → List Char
  | [] => []
  | c :: cs => uppercase c ++ cs

/-- The words between underscores, capitalized and written together: `IsValid` for `is_valid`. -/
def pascalCase (name : String) : String :=
  String.ofList ((name.toList.splitOn '_').flatMap capitalized)

inductive RenameScope where
  | any
  | onlyStatic
  | onlyInstance
deriving DecidableEq, Repr, Inhabited

/-- A function is in the scope or not. -/
def RenameScope.admits : RenameScope → (isStatic : Bool) → Bool
  | any, _ => true
  | onlyStatic, isStatic => isStatic
  | onlyInstance, isStatic => !isStatic

/-- Replaces one Pascal case name by another. -/
structure RenameRule where
  source : String
  target : String
  scope : RenameScope
deriving DecidableEq, Repr, Inhabited

def RenameRule.applies (rule : RenameRule) (name : String) (isStatic : Bool) : Bool :=
  rule.scope.admits isStatic && rule.source == name

structure NamingPolicy where
  renames : List RenameRule
  /-- Starts the native names of functions that can become properties. -/
  propertyStart : String
deriving Repr, Inhabited

namespace NamingPolicy

/-- The name of the member for a native function; the first rule that applies decides. -/
def memberName (naming : NamingPolicy) (native : String) (isStatic : Bool) : String :=
  let name := pascalCase native
  match naming.renames.find? (·.applies name isStatic) with
  | some rule => rule.target
  | none => name

/-- A function without parameters that returns a value and is named like a property. -/
def isProperty (naming : NamingPolicy) (function : MemberFunction) : Bool :=
  !function.isConstructor && function.params.isEmpty && !function.returnType.isVoid &&
    naming.propertyStart.toList.isPrefixOf function.name.toList

end NamingPolicy

end NativeBindings
