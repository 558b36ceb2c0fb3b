import NativeBindings.Native.Declaration

/-!
# Declarations as JSON text

The written form of declarations with every field in place, in compact JSON: no blanks between
tokens, and escapes only where JSON asks for them.
-/

namespace NativeBindings

namespace Json.Print

/-- The escape of a control character that has no short one. -/
def controlEscape (c : Char) : List Char :=
  "\\u00".toList ++ [Nat.digitChar (c.toNat / 16), Nat.digitChar (c.toNat % 16)]

/-- One character of a string. -/
def stringChar (c : Char) : List Char :=
  if c = '"' then ['\\', '"']
  else if c = '\\' then ['\\', '\\']
  else if c = '\n' then ['\\', 'n']
  else if c = '\r' then ['\\', 'r']
  else if c = '\t' then ['\\', 't']
  else if c = '\x08' then ['\\', 'b']
  else if c = '\x0c' then ['\\', 'f']
  else if c.toNat < 0x20 then controlEscape c
  else [c]

def string (value : String) : List Char := '"' :: value.toList.flatMap stringChar ++ ['"']

def natural (value : Nat) : List Char := Nat.toDigits 10 value

def boolean (value : Bool) : List Char := if value then "true".toList else "false".toList

/-- A value that may be missing. -/
def optional {α : Type} (value : α → List Char) : Option α → List Char
  | some a => value a
  | none => "null".toList

/-- Pieces with commas between them. -/
def commaSeparated (pieces : List (List Char)) : List Char := [','].intercalate pieces

def list {α : Type} (value : α → List Char) (values : List α) : List Char :=
  '[' :: commaSeparated (values.map value) ++ [']']

def field (name : String) (value : List Char) : List Char := string name ++ ':' :: value

def object (fields : List (List Char)) : List Char := '{' :: commaSeparated fields ++ ['}']

end Json.Print

open Json

def SourceLocation.json (location : SourceLocation) : List Char :=
  Print.object [Print.field "file" (Print.optional Print.string location.file),
    Print.field "line" (Print.natural location.line.toNat),
    Print.field "column" (Print.natural location.column.toNat)]

def Parameter.json (param : Parameter) : List Char :=
  Print.object [Print.field "name" (Print.string param.name),
    Print.field "type" (Print.string param.type.spelling)]

/-- The word for a kind of function. -/
def FunctionKind.word : FunctionKind → String
  | method => "method"
  | constructor => "constructor"

def MemberFunction.json (function : MemberFunction) : List Char :=
  Print.object [Print.field "name" (Print.string function.name),
    Print.field "return_type" (Print.string function.returnType.spelling),
    Print.field "params" (Print.list (·.json) function.params),
    Print.field "kind" (Print.string function.kind.word),
    Print.field "is_static" (Print.boolean function.isStatic),
    Print.field "doc" (Print.optional Print.string function.doc),
    Print.field "is_operator" (Print.boolean function.markedOperator),
    Print.field "location" (Print.optional (·.json) function.location)]

mutual

/-- The written form of a class. -/
def NativeClass.json : NativeClass → List Char
  | ⟨name, constructors, functions, classes, doc, location⟩ =>
    Print.object [Print.field "name" (Print.string name),
      Print.field "constructors" (Print.list (·.json) constructors),
      Print.field "functions" (Print.list (·.json) functions),
      Print.field "classes" ('[' :: Print.commaSeparated (jsonOfClasses classes) ++ [']']),
      Print.field "doc" (Print.optional Print.string doc),
      Print.field "location" (Print.optional (·.json) location)]

def jsonOfClasses : List NativeClass → List (List Char)
  | [] => []
  | c :: rest => c.json :: jsonOfClasses rest

end

/-- The written form of a tree of declarations. -/
def Declarations.json (tree : Declarations) : List Char :=
  Print.object [Print.field "header" (Print.optional Print.string tree.header),
    Print.field "classes" ('[' :: Print.commaSeparated (jsonOfClasses tree.classes) ++ [']'])]

end NativeBindings
