import NativeBindings.Files.Access
import NativeBindings.Generation.Generate
import NativeBindings.Native.FromJson
import NativeBindings.Settings.Project

/-!
# Building bindings

A build reads declarations, generates both documents and writes them to their files. Nothing is
written unless generation succeeds. Each document is first written beside its file, and both are
moved into place once both have been written.
-/

namespace NativeBindings

inductive SourceFault where
  | unreadable (path : FilePath) (fault : FileFault)
  | unfit (path : FilePath) (fault : DeclarationTextFault)
deriving DecidableEq, Repr

namespace SourceFault

def message : SourceFault → String
  | unreadable path fault => "failed to read " ++ path.text ++ ": " ++ fault.message
  | unfit path fault => fault.message path.text

/-- What led to the fault, the nearest cause first. -/
def causes : SourceFault → List String
  | unreadable _ fault => [fault.message]
  | unfit _ (.invalid fault) => [fault.message]
  | unfit _ (.malformed _) => []

end SourceFault

/-- The normalized and valid declarations in a file. -/
def Declarations.ofFile {m : Type → Type} [Monad m] [FileAccess m] (path : FilePath) :
    ExceptT SourceFault m Declarations := do
  let text ← (FileAccess.readText path).adapt (.unreadable path)
  (ExceptT.mk (pure (Declarations.parse text))).adapt (.unfit path)

inductive BuildFault where
  | source (fault : SourceFault)
  | declarations (fault : DeclarationFault)
  /-- Something could not be written at a path. -/
  | output (path : FilePath) (fault : FileFault)
deriving DecidableEq, Repr

namespace BuildFault

/-- Text in front of a fault in declarations that generation was asked for. -/
def invalidTree (fault : DeclarationFault) : String :=
  "invalid declaration tree: " ++ fault.message

def message : BuildFault → String
  | source fault => "parse failed: " ++ fault.message
  | declarations fault => "generation failed: " ++ invalidTree fault
  | output path fault => "failed to write " ++ path.text ++ ": " ++ fault.message

def causes : BuildFault → List String
  | source fault => fault.message :: fault.causes
  | declarations fault => [invalidTree fault, fault.message]
  | output _ fault => [fault.message]

end BuildFault

/-- Where the content of a file is written before it is moved into place. -/
def FilePath.stage (path : FilePath) : FilePath :=
  path.withFileName (path.fileName?.getD "" ++ ".tmp")

/-- Where the declarations of a build come from. -/
inductive DeclarationSource where
  | file
  /-- Whatever parses the header. What it gives need not be valid. -/
  | header (parse : FilePath → ParserOptions → Except SourceFault Declarations)
deriving Inhabited

/-- Declarations that are at hand do for any header. -/
instance : Coe (Option Declarations) DeclarationSource where
  coe
    | some tree => .header fun _ _ => .ok tree
    | none => .file

structure BindingsBuild where
  generator : GeneratorSettings
  parser : ParserOptions
  paths : ProjectPaths
  declarations : DeclarationSource
deriving Inhabited

namespace BindingsBuild

def ofGenerator (generator : GeneratorSettings) : BindingsBuild :=
  ⟨generator, .default, .default, .file⟩

def ofProject (project : ProjectSettings) : BindingsBuild :=
  ⟨project.generator, project.parser, project.paths, .file⟩

variable {m : Type → Type} [Monad m] [FileAccess m]

/-- An operation on files whose failure is put down to a path. -/
def writing {α : Type} (path : FilePath) (operation : ExceptT FileFault m α) :
    ExceptT BuildFault m α :=
  operation.adapt (.output path)

/-- Writes content beside the file that it is for, in a directory that is made if it is missing. -/
def stage (destination : FilePath) (content : String) : ExceptT BuildFault m Unit := do
  if let some parent := destination.parent? then
    writing parent (FileAccess.ensureDirectories parent)
  writing destination.stage (FileAccess.writeText destination.stage content)

/-- Moves content into place that was written beside. -/
def commit (destination : FilePath) : ExceptT BuildFault m Unit :=
  writing destination (FileAccess.moveFile destination.stage destination)

/-- Takes content back that was written beside its file. -/
def withdraw (destination : FilePath) : ExceptT BuildFault m Unit :=
  tryCatch (writing destination.stage (FileAccess.removeFile destination.stage)) fun _ => pure ()

def tree (build : BindingsBuild) : ExceptT BuildFault m Declarations :=
  match build.declarations with
  | .file => (Declarations.ofFile build.paths.declarations).adapt .source
  | .header parse => (ExceptT.mk (pure (parse build.paths.header build.parser))).adapt .source

/-- Generates both documents and writes nothing. -/
def generate (build : BindingsBuild) : ExceptT BuildFault m Generated := do
  let tree ← build.tree
  (ExceptT.mk (pure (build.generator.generate tree))).adapt .declarations

/-- Generates both documents and writes them. If the second one cannot be written, the first one is
taken back. -/
def run (build : BindingsBuild) : ExceptT BuildFault m GenerationReport := do
  let generated ← build.generate
  stage build.paths.glueOutput generated.glue.text
  tryCatch (stage build.paths.bindingOutput generated.bindings.text) fun fault => do
    withdraw build.paths.glueOutput
    throw fault
  commit build.paths.glueOutput
  commit build.paths.bindingOutput
  return generated.report

end BindingsBuild

end NativeBindings
