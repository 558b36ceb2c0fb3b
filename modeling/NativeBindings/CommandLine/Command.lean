import NativeBindings.Build.Bindings
import NativeBindings.Files.Access
import NativeBindings.Settings.FromToml

/-!
# Commands

There are two commands: one builds the bindings of a project, the other one only checks that they
can be generated. Both print the report. Arguments come in pairs: a flag, and the path that it sets.
Any text can be a path, even one that looks like a flag, and the last pair of a flag counts. A
failure says what was being done and what led to it, down to the first cause.
-/

namespace NativeBindings

/-- Why a command failed. -/
structure Failure where
  context : String
  /-- The nearest cause first. -/
  causes : List String
deriving DecidableEq, Repr

namespace Failure

private def blanks (count : Nat) : String := String.ofList (List.replicate count ' ')

/-- A text behind a label; its lines but the first are indented as far as the label reaches. -/
def labelled (label text : String) : String :=
  "\n" ++ label ++ String.ofList (text.toList.flatMap fun c =>
    if c = '\n' then '\n' :: List.replicate label.length ' ' else [c])

def numberLabel (number : Nat) : String :=
  let digits := toString number
  blanks (5 - digits.length) ++ digits ++ ": "

def numbered (first : Nat) : List String → String
  | [] => ""
  | cause :: rest => labelled (numberLabel first) cause ++ numbered (first + 1) rest

/-- The failure with its causes; several causes are numbered. -/
def text (failure : Failure) : String :=
  failure.context ++
    match failure.causes with
    | [] => ""
    | [cause] => "\n\nCaused by:" ++ labelled (blanks 4) cause
    | causes => "\n\nCaused by:" ++ numbered 0 causes

end Failure

/-- Paths that arguments can set. -/
inductive Flag where
  | config
  | header
  | declarations
  | glueOutput
  | bindingOutput
deriving DecidableEq, Repr

/-- The flag of a word; two of them have a short spelling too. -/
def Flag.ofWord? : String → Option Flag
  | "--config" | "-c" => some .config
  | "--header" => some .header
  | "--declarations" | "-d" => some .declarations
  | "--glue-out" => some .glueOutput
  | "--bindings-out" => some .bindingOutput
  | _ => none

inductive FlagFault where
  | unknown (word : String)
  | missingPath (word : String)
deriving DecidableEq, Repr

def FlagFault.message : FlagFault → String
  | unknown word => "Unknown flag: " ++ word
  | missingPath word => word ++ " requires a path"

/-- The paths that arguments set. -/
structure FlagPaths where
  config : Option FilePath
  header : Option FilePath
  declarations : Option FilePath
  glueOutput : Option FilePath
  bindingOutput : Option FilePath
deriving DecidableEq, Repr

namespace FlagPaths

def unset : FlagPaths := ⟨none, none, none, none, none⟩

def get? (paths : FlagPaths) : Flag → Option FilePath
  | .config => paths.config
  | .header => paths.header
  | .declarations => paths.declarations
  | .glueOutput => paths.glueOutput
  | .bindingOutput => paths.bindingOutput

def set (paths : FlagPaths) (flag : Flag) (path : FilePath) : FlagPaths :=
  match flag with
  | .config => { paths with config := some path }
  | .header => { paths with header := some path }
  | .declarations => { paths with declarations := some path }
  | .glueOutput => { paths with glueOutput := some path }
  | .bindingOutput => { paths with bindingOutput := some path }

@[simp] theorem get?_unset (flag : Flag) : unset.get? flag = none := by
  cases flag <;> rfl

@[simp] theorem get?_set (paths : FlagPaths) (flag other : Flag) (path : FilePath) :
    (paths.set flag path).get? other = if other = flag then some path else paths.get? other := by
  cases flag <;> cases other <;> rfl

/-- Sets the paths of arguments one after the other. -/
def setAll (paths : FlagPaths) : List String → Except FlagFault FlagPaths
  | [] => .ok paths
  | [word] =>
    match Flag.ofWord? word with
    | none => .error (.unknown word)
    | some _ => .error (.missingPath word)
  | word :: path :: rest =>
    match Flag.ofWord? word with
    | none => .error (.unknown word)
    | some flag => (paths.set flag ⟨path⟩).setAll rest

def ofArguments (arguments : List String) : Except FlagFault FlagPaths := unset.setAll arguments

end FlagPaths

/-- What is printed on request, and when a command is not known. -/
def usage : String :=
  "sharpweld - C glue and C# binding generator

USAGE:
    sharpweld <COMMAND> [OPTIONS]

COMMANDS:
    generate    Parse declarations and write both output files
    check       Run generation without writing and print the report
    help        Print this message

OPTIONS:
    -c, --config <path>          sharpweld.toml to load (default: ./sharpweld.toml if present)
    -d, --declarations <path>    Serialized declaration tree
        --header <path>          Native header the declarations describe
        --glue-out <path>        Output path for the C++ glue
        --bindings-out <path>    Output path for the C# bindings

ENVIRONMENT:
    SHARPWELD_LOG                Log filter (default: info)
"

/-- The settings that are used if no other ones are named. -/
def defaultConfig : FilePath := ⟨"sharpweld.toml"⟩

/-- Whether a build writes its documents. -/
inductive BuildMode where
  | write
  | check
deriving DecidableEq, Repr

/-- What a command prints, and whether it succeeded. -/
structure CommandResult where
  output : String
  errors : String
  succeeded : Bool
deriving DecidableEq, Repr

namespace CommandResult

def printed (output : String) : CommandResult := ⟨output, "", true⟩

def failed (before : String) (failure : Failure) : CommandResult :=
  ⟨"", before ++ "Error: " ++ failure.text ++ "\n", false⟩

end CommandResult

namespace FlagPaths

/-- The paths of a project with those that arguments set in their place. -/
def override (flags : FlagPaths) (paths : ProjectPaths) : ProjectPaths :=
  { header := flags.header.getD paths.header
    declarations := flags.declarations.getD paths.declarations
    glueOutput := flags.glueOutput.getD paths.glueOutput
    bindingOutput := flags.bindingOutput.getD paths.bindingOutput }

variable {m : Type → Type} [Monad m] [FileAccess m]

def loadFrom (path : FilePath) (context : String) : ExceptT Failure m ProjectSettings :=
  (ProjectSettings.ofFile path).adapt fun fault => ⟨context, fault.message :: fault.causes⟩

/-- The settings of a project. A file that is named has to be there, the default one need not. -/
def loadProject (flags : FlagPaths) : ExceptT Failure m ProjectSettings := do
  match flags.config with
  | some path => loadFrom path ("loading config " ++ path.text)
  | none =>
    if ← (FileAccess.isPresent defaultConfig : m Bool) then
      loadFrom defaultConfig ("loading " ++ defaultConfig.text)
    else pure .default

def loadBuild (flags : FlagPaths) : ExceptT Failure m BindingsBuild := do
  let project ← flags.loadProject
  return .ofProject { project with paths := flags.override project.paths }

end FlagPaths

namespace BindingsBuild

/-- A failed build, with the path of its declarations. -/
def failure (build : BindingsBuild) (fault : BuildFault) : Failure :=
  ⟨"generating bindings from " ++ build.paths.declarations.text, fault.message :: fault.causes⟩

variable {m : Type → Type} [Monad m] [FileAccess m]

/-- Runs a build in a mode; the result is what it prints. -/
def print (build : BindingsBuild) : BuildMode → ExceptT Failure m String
  | .check => do
    let generated ← build.generate.adapt build.failure
    return generated.report.text
  | .write => do
    let report ← build.run.adapt build.failure
    return "Wrote " ++ build.paths.glueOutput.text ++ "\nWrote " ++
      build.paths.bindingOutput.text ++ "\n" ++ report.text

end BindingsBuild

variable {m : Type → Type} [Monad m] [FileAccess m]

def runBuild (mode : BuildMode) (arguments : List String) : m CommandResult := do
  let printed : ExceptT Failure m String := do
    let flags ← (ExceptT.mk (pure (FlagPaths.ofArguments arguments))).adapt fun fault =>
      ⟨fault.message, []⟩
    let build ← flags.loadBuild
    build.print mode
  match ← printed.run with
  | .ok output => return .printed output
  | .error failure => return .failed "" failure

/-- Runs the command that arguments ask for. -/
def runCommand : List String → m CommandResult
  | [] => pure (.printed usage)
  | command :: arguments =>
    match command with
    | "generate" => runBuild .write arguments
    | "check" => runBuild .check arguments
    | "help" | "--help" | "-h" => pure (.printed usage)
    | other => pure (.failed usage ⟨"Unknown command: " ++ other, []⟩)

end NativeBindings
