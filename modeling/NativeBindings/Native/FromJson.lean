import NativeBindings.Json.Record
import NativeBindings.Native.Declaration

/-!
# Declarations from JSON text

The written form of declarations: every record is an object whose fields may come in any order, and
most may be left out. Unknown fields are skipped. What is read is normalized and validated.
-/

namespace NativeBindings

open Json (Fault Reader)
open Json.Reader

/-- Fields of a location that have been read. -/
structure LocationFields where
  file : Option (Option String)
  line : Option UInt32
  column : Option UInt32

/-- The location of these fields; it may be wholly unknown. -/
def LocationFields.location (f : LocationFields) : SourceLocation :=
  ⟨f.file.getD none, f.line.getD 0, f.column.getD 0⟩

def LocationFields.read (name : String) (f : LocationFields) : Reader LocationFields :=
  match name with
  | "file" => return { f with file := ← field name f.file (optional text) }
  | "line" => return { f with line := ← field name f.line word32 }
  | "column" => return { f with column := ← field name f.column word32 }
  | _ => unknownField f

def readLocation (levels : Nat) : Reader SourceLocation :=
  record levels "struct SourceLocation"
    (fun _ => do
      let f ← members LocationFields.read true ⟨none, none, none⟩ ((← remaining) + 1)
      return f.location)
    (fun _ => do
      let file ← positional? true (optional text)
      let line ← positional? file.isNone word32
      let column ← positional? file.isNone word32
      return LocationFields.location ⟨file, line, column⟩)

structure ParameterFields where
  name : Option String
  type : Option String

def ParameterFields.read (name : String) (f : ParameterFields) : Reader ParameterFields :=
  match name with
  | "name" => return { f with name := ← field name f.name text }
  | "type" => return { f with type := ← field name f.type text }
  | _ => unknownField f

/-- Reads a parameter. Its type must be there. -/
def readParameter (levels : Nat) : Reader Parameter :=
  record levels "struct ParameterDecl"
    (fun _ => do
      let f ← members ParameterFields.read true ⟨none, none⟩ ((← remaining) + 1)
      return ⟨f.name.getD "", ⟨← required "type" f.type⟩⟩)
    (fun _ => do
      let name ← positional? true text
      let type ← positional? name.isNone text
      return ⟨name.getD "",
        ⟨← requiredAt 1 "struct ParameterDecl with 2 elements" type⟩⟩)

/-- The kind of function that a word stands for. -/
def FunctionKind.ofWord? : String → Option FunctionKind
  | "method" => some .method
  | "constructor" => some .constructor
  | _ => none

def readKind (levels : Nat) : Reader FunctionKind :=
  choice levels "`method` or `constructor`" FunctionKind.ofWord?

structure FunctionFields where
  name : Option String
  returnType : Option String
  params : Option (List Parameter)
  kind : Option FunctionKind
  isStatic : Option Bool
  doc : Option (Option String)
  markedOperator : Option Bool
  location : Option (Option SourceLocation)

namespace FunctionFields

def empty : FunctionFields := ⟨none, none, none, none, none, none, none, none⟩

def function (f : FunctionFields) (name : String) : MemberFunction :=
  { name
    returnType := (f.returnType.map NativeType.mk).getD .void
    params := f.params.getD []
    kind := f.kind.getD .method
    isStatic := f.isStatic.getD false
    doc := f.doc.getD none
    markedOperator := f.markedOperator.getD false
    location := f.location.getD none }

/-- Reads one field of a function, for a number of levels inside it. -/
def read (inner : Nat) (name : String) (f : FunctionFields) : Reader FunctionFields :=
  match name with
  | "name" => return { f with name := ← field name f.name text }
  | "return_type" => return { f with returnType := ← field name f.returnType text }
  | "params" =>
    return { f with params := ← field name f.params (list inner (readParameter (inner - 1))) }
  | "kind" => return { f with kind := ← field name f.kind (readKind inner) }
  | "is_static" => return { f with isStatic := ← field name f.isStatic boolean }
  | "doc" => return { f with doc := ← field name f.doc (optional text) }
  | "is_operator" => return { f with markedOperator := ← field name f.markedOperator boolean }
  | "location" =>
    return { f with location := ← field name f.location (optional (readLocation inner)) }
  | _ => unknownField f

end FunctionFields

/-- Reads a function. Its name must be there. -/
def readFunction (levels : Nat) : Reader MemberFunction :=
  record levels "struct FunctionDecl"
    (fun inner => do
      let f ← members (FunctionFields.read inner) true .empty ((← remaining) + 1)
      return f.function (← required "name" f.name))
    (fun inner => do
      let name ← positional? true text
      let name' ← requiredAt 0 "struct FunctionDecl with 8 elements" name
      let returnType ← positional? false text
      let params ← positional? false (list inner (readParameter (inner - 1)))
      let kind ← positional? false (readKind inner)
      let isStatic ← positional? false boolean
      let doc ← positional? false (optional text)
      let markedOperator ← positional? false boolean
      let location ← positional? false (optional (readLocation inner))
      return FunctionFields.function
        ⟨name, returnType, params, kind, isStatic, doc, markedOperator, location⟩ name')

structure ClassFields where
  name : Option String
  constructors : Option (List MemberFunction)
  functions : Option (List MemberFunction)
  classes : Option (List NativeClass)
  doc : Option (Option String)
  location : Option (Option SourceLocation)

namespace ClassFields

def empty : ClassFields := ⟨none, none, none, none, none, none⟩

def nativeClass (f : ClassFields) (name : String) : NativeClass :=
  { name
    constructors := f.constructors.getD []
    functions := f.functions.getD []
    classes := f.classes.getD []
    doc := f.doc.getD none
    location := f.location.getD none }

def read (inner : Nat) (nested : Reader (List NativeClass)) (name : String) (f : ClassFields) :
    Reader ClassFields :=
  match name with
  | "name" => return { f with name := ← field name f.name text }
  | "constructors" =>
    return { f with
      constructors := ← field name f.constructors (list inner (readFunction (inner - 1))) }
  | "functions" =>
    return { f with
      functions := ← field name f.functions (list inner (readFunction (inner - 1))) }
  | "classes" => return { f with classes := ← field name f.classes nested }
  | "doc" => return { f with doc := ← field name f.doc (optional text) }
  | "location" =>
    return { f with location := ← field name f.location (optional (readLocation inner)) }
  | _ => unknownField f

end ClassFields

/-- Reads a class whose nested classes are read by `nested`. Its name must be there. -/
def readClassWith (levels : Nat) (nested : Reader (List NativeClass)) : Reader NativeClass :=
  record levels "struct ClassDecl"
    (fun inner => do
      let f ← members (ClassFields.read inner nested) true .empty ((← remaining) + 1)
      return f.nativeClass (← required "name" f.name))
    (fun inner => do
      let name ← positional? true text
      let name' ← requiredAt 0 "struct ClassDecl with 6 elements" name
      let constructors ← positional? false (list inner (readFunction (inner - 1)))
      let functions ← positional? false (list inner (readFunction (inner - 1)))
      let classes ← positional? false nested
      let doc ← positional? false (optional text)
      let location ← positional? false (optional (readLocation inner))
      return ClassFields.nativeClass ⟨name, constructors, functions, classes, doc, location⟩ name')

/-- Reads a class. Each class takes one level, and so does the list of its nested classes. -/
def readClass : Nat → Reader NativeClass
  | 0 => readClassWith 0 (fault .recursionLimit)
  | 1 => readClassWith 1 (list 0 (fault .recursionLimit))
  | levels + 2 => readClassWith (levels + 2) (list (levels + 1) (readClass levels))

structure TreeFields where
  header : Option (Option String)
  classes : Option (List NativeClass)

def TreeFields.read (inner : Nat) (name : String) (f : TreeFields) : Reader TreeFields :=
  match name with
  | "header" => return { f with header := ← field name f.header (optional text) }
  | "classes" =>
    return { f with classes := ← field name f.classes (list inner (readClass (inner - 1))) }
  | _ => unknownField f

def TreeFields.declarations (f : TreeFields) : Declarations :=
  ⟨f.header.getD none, f.classes.getD []⟩

/-- Reads a tree of declarations. -/
def readDeclarations (levels : Nat) : Reader Declarations :=
  record levels "struct DeclTree"
    (fun inner => do
      let f ← members (TreeFields.read inner) true ⟨none, none⟩ ((← remaining) + 1)
      return f.declarations)
    (fun inner => do
      let header ← positional? true (optional text)
      let classes ← positional? header.isNone (list inner (readClass (inner - 1)))
      return TreeFields.declarations ⟨header, classes⟩)

/-- Why declarations cannot be had from a text. -/
inductive DeclarationTextFault where
  | malformed (fault : Fault)
  | invalid (fault : DeclarationFault)
deriving DecidableEq, Repr

def Declarations.ofText? (text : String) : Except Fault Declarations :=
  (readDeclarations levelLimit).run text

/-- The normalized and valid declarations in a text. -/
def Declarations.parse (text : String) : Except DeclarationTextFault Declarations :=
  match Declarations.ofText? text with
  | .error fault => .error (.malformed fault)
  | .ok tree =>
    match tree.normalized.validate with
    | .error fault => .error (.invalid fault)
    | .ok () => .ok tree.normalized

def DeclarationTextFault.message (origin : String) : DeclarationTextFault → String
  | malformed fault =>
    "malformed declarations in " ++ origin ++ " at line " ++ toString fault.position.line ++
      ", column " ++ toString fault.position.column ++ ": " ++ fault.message
  | invalid fault => "invalid declarations: " ++ fault.message

end NativeBindings
