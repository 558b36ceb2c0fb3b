import NativeBindings.Files.Access
import NativeBindings.Host.Type
import NativeBindings.Policy.Admission
import NativeBindings.Policy.Naming

/-!
# Project settings

Everything that generation consults besides the declarations, where the inputs and outputs of a
project are, and how its header was parsed.
-/

namespace NativeBindings

/-- Settings that shape the generated documents. -/
structure GeneratorSettings where
  namespaceName : String
  /-- Hand-written class that holds the name of the native library. -/
  mainClass : String
  /-- Constant of the main class with that name. -/
  nativeLibrary : String
  headerInclude : String
  denylist : Denylist
  aliases : AliasTable
  renames : List RenameRule
  constructors : ConstructorPolicy
  /-- Starts the native names of functions that can become properties. -/
  propertyStart : String
deriving Repr, Inhabited

/-- The names that are left out unless settings say otherwise. -/
def Denylist.default : Denylist :=
  ⟨["iterator::scopeindex_t", "simdjson", "ParsedJson::InvalidJSON", "basic_ostream",
    "padded_string"]⟩

def AliasTable.default : AliasTable :=
  .ofList [("iterator", "ParsedJsonIteratorN"), ("ParsedJson", "ParsedJsonN")]

/-- The renames unless settings say otherwise: a static predicate that shares its name with a
method, and a method that would hide one that every object has. -/
def RenameRule.defaults : List RenameRule :=
  [⟨"IsObjectOrArray", "IsObjectOrArrayStatic", .onlyStatic⟩, ⟨"GetType", "GetTokenType", .any⟩]

namespace GeneratorSettings

def default : GeneratorSettings :=
  { namespaceName := "SimdJsonSharp"
    mainClass := "SimdJsonN"
    nativeLibrary := "NativeLib"
    headerInclude := "simdjson.h"
    denylist := .default
    aliases := .default
    renames := RenameRule.defaults
    constructors := .firstDeclared
    propertyStart := "is" }

/-- The expression that holds the name of the native library. -/
def libraryReference (settings : GeneratorSettings) : String :=
  settings.mainClass ++ "." ++ settings.nativeLibrary

def naming (settings : GeneratorSettings) : NamingPolicy :=
  ⟨settings.renames, settings.propertyStart⟩

def addAlias (settings : GeneratorSettings) (native host : String) : GeneratorSettings :=
  { settings with aliases := settings.aliases.insert native host }

end GeneratorSettings

/-- Locations of inputs and outputs. -/
structure ProjectPaths where
  header : FilePath
  /-- The written form of the declarations. -/
  declarations : FilePath
  glueOutput : FilePath
  bindingOutput : FilePath
deriving DecidableEq, Repr, Inhabited

/-- Processor that a header is parsed for. -/
inductive TargetCpu where
  | x86
  | x86_64
  | arm
  | arm64
deriving DecidableEq, Repr, Inhabited

/-- The processor in a target triple. -/
def TargetCpu.architecture : TargetCpu → String
  | x86 => "i686"
  | x86_64 => "x86_64"
  | arm => "armv7"
  | arm64 => "aarch64"

/-- Calling convention that a header is parsed for. -/
inductive AbiProfile where
  | msvc
  | gnu
deriving DecidableEq, Repr, Inhabited

/-- The part of a target triple behind the processor. -/
def AbiProfile.environment : AbiProfile → String
  | msvc => "pc-windows-msvc"
  | gnu => "unknown-linux-gnu"

structure ParserOptions where
  targetCpu : TargetCpu
  abi : AbiProfile
  languageStandard : String
  /-- Macros are expanded and recorded. -/
  macros : Bool
  additionalArguments : List String
deriving DecidableEq, Repr, Inhabited

namespace ParserOptions

def default : ParserOptions := ⟨.x86_64, .msvc, "c++17", true, []⟩

/-- The options as arguments of a compiler front end. -/
def compilerArguments (options : ParserOptions) : List String :=
  ["-x", "c++",
    "--target=" ++ options.targetCpu.architecture ++ "-" ++ options.abi.environment,
    "-std=" ++ options.languageStandard] ++
    (if options.abi = .msvc then ["-fms-extensions", "-fms-compatibility"] else []) ++
    (if options.macros then ["-Xclang", "-detailed-preprocessing-record"] else []) ++
    options.additionalArguments

end ParserOptions

structure ProjectSettings where
  paths : ProjectPaths
  parser : ParserOptions
  generator : GeneratorSettings
deriving Repr, Inhabited

def ProjectPaths.default : ProjectPaths :=
  let native : FilePath := ⟨"../../src/BindingsForNativeLib/SimdJsonNative"⟩
  let host : FilePath := ⟨"../../src/BindingsForNativeLib/SimdJsonSharp.Bindings"⟩
  { header := native.join "simdjson.h"
    declarations := native.join "simdjson.decl.json"
    glueOutput := native.join "bindings.cpp"
    bindingOutput := host.join "Bindings.Generated.cs" }

def ProjectSettings.default : ProjectSettings := ⟨.default, .default, .default⟩

end NativeBindings
