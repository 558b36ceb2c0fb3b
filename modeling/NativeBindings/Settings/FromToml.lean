import NativeBindings.Files.Access
import NativeBindings.Settings.Project
import NativeBindings.Text.Quoted
import NativeBindings.Toml.Document

/-!
# Project settings from TOML text

A project sets what it wants to change in three tables; all else keeps its default. Unknown keys are
passed over. Entries are looked at in the order in which they were made, and the first one that does
not fit is reported.
-/

namespace NativeBindings

open Text
open Toml (Node)

/-- Why settings cannot be had from a text. -/
inductive SettingsFault where
  | malformed
  /-- The first value that does not fit, in words, and where it is. -/
  | unfit (message : String) (excerpt : Excerpt)
deriving DecidableEq, Repr

def SettingsFault.report : SettingsFault → String
  | malformed => "TOML parse error\n"
  | unfit message excerpt =>
    "TOML parse error at line " ++ toString excerpt.line ++ ", column " ++
      toString (excerpt.column + 1) ++ "\n" ++ excerpt.text ++ message ++ "\n"

namespace Settings

/-- A value that does not fit; its place may have to be found around it. -/
structure Misfit where
  message : String
  span : Option Span

/-- Takes a value out of a node, or says why it does not fit. -/
abbrev Decoded := Except Misfit

/-- A fault whose place is around the value. -/
def misfit {α : Type} (message : String) : Decoded α := .error ⟨message, none⟩

/-- Faults without a place get this one, if it is known. -/
def within {α : Type} (span : Option Span) (decoded : Decoded α) : Decoded α :=
  decoded.mapError fun fault => { fault with span := fault.span <|> span }

/-- The kind of a node, in messages about values that do not fit. -/
def shown (node : Node) : String :=
  match node.form with
  | .string value => "string " ++ quoted value
  | .integer value => "integer `" ++ toString value ++ "`"
  | .floating text => "floating point `" ++ text ++ "`"
  | .boolean value => "boolean `" ++ toString value ++ "`"
  | .datetime _ => "map"
  | .array _ => "sequence"
  | .table _ _ => "map"
  | .tables _ => "sequence"

/-- A node of another kind than the one expected. -/
def invalidType {α : Type} (node : Node) (expected : String) : Decoded α :=
  within node.span (misfit ("invalid type: " ++ shown node ++ ", expected " ++ expected))

/-- Choices with `or` between two of them, and with commas between more. -/
def alternatives (names : List String) : String :=
  let ticked := names.map fun name => "`" ++ name ++ "`"
  if names.length = 2 then " or ".intercalate ticked
  else "one of " ++ ", ".intercalate ticked

def text (expected : String) (node : Node) : Decoded String :=
  match node.form with
  | .string value => .ok value
  | _ => invalidType node expected

def boolean (node : Node) : Decoded Bool :=
  match node.form with
  | .boolean value => .ok value
  | _ => invalidType node "a boolean"

/-- The values of a list. -/
def elements? (node : Node) : Option (List Node) :=
  match node.form with
  | .array values => some values
  | .tables members => some (members.map fun member => ⟨member.span, .table .header member.entries⟩)
  | _ => none

/-- The entries of a table. A date counts as a table with one entry. -/
def entries? (node : Node) : Option Toml.Table :=
  match node.form with
  | .table _ entries => some entries
  | .datetime value =>
    some [(⟨"$__toml_private_datetime", default⟩, ⟨none, .string value⟩)]
  | _ => none

def list {α : Type} (element : Node → Decoded α) (node : Node) : Decoded (List α) :=
  match elements? node with
  | some values => within node.span (values.mapM element)
  | none => invalidType node "a sequence"

/-- One of several named choices. -/
def choose {α : Type} (choices : List (String × α)) (name : String) : Decoded α :=
  match choices.lookup name with
  | some value => .ok value
  | none =>
    misfit ("unknown variant `" ++ name ++ "`, expected " ++ alternatives (choices.map (·.1)))

/-- Something empty, behind the name of a choice. -/
def nothing (node : Node) : Decoded Unit :=
  within node.span <|
    match node.form with
    | .table _ [] | .array [] | .tables [] => .ok ()
    | .table _ _ | .array _ => misfit "expected empty table"
    | .tables _ => misfit "expected empty array"
    | _ => misfit ("expected table, found " ++ node.kindName)

/-- A named choice: its name, or a table with the name over something empty. -/
def choice {α : Type} (choices : List (String × α)) (node : Node) : Decoded α :=
  within node.span <|
    match node.form with
    | .string name => choose choices name
    | .table _ [] => misfit "wanted exactly 1 element, found 0 elements"
    | .table _ [(key, inner)] => do
      let value ← within (some key.span) (choose choices key.name)
      nothing inner
      return value
    | .table _ _ => misfit "wanted exactly 1 element, more than 1 element"
    | _ => misfit "wanted string or table"

/-- Changes settings entry by entry; a list changes the named fields in order. -/
def update {σ : Type} (expected : String) (fields : List String)
    (set : String → Node → σ → Decoded σ) (settings : σ) (node : Node) : Decoded σ :=
  match entries? node, elements? node with
  | some entries, _ =>
    within node.span <| entries.foldlM
      (fun settings (key, value) =>
        within (value.span <|> some key.span) (set key.name value settings)) settings
  | none, some values =>
    within node.span <|
      (fields.zip values).foldlM (fun settings (name, value) => set name value settings) settings
  | none, none => invalidType node expected

def path (node : Node) : Decoded FilePath := (text "path string" node).map FilePath.mk

def setPath (name : String) (node : Node) (paths : ProjectPaths) : Decoded ProjectPaths :=
  match name with
  | "header" => return { paths with header := ← path node }
  | "declarations" => return { paths with declarations := ← path node }
  | "glue_output" => return { paths with glueOutput := ← path node }
  | "binding_output" => return { paths with bindingOutput := ← path node }
  | _ => .ok paths

def cpuChoices : List (String × TargetCpu) :=
  [("x86", .x86), ("x86_64", .x86_64), ("arm", .arm), ("arm64", .arm64)]

def abiChoices : List (String × AbiProfile) := [("msvc", .msvc), ("gnu", .gnu)]

def setParserOption (name : String) (node : Node) (options : ParserOptions) :
    Decoded ParserOptions :=
  match name with
  | "target_cpu" => return { options with targetCpu := ← choice cpuChoices node }
  | "abi" => return { options with abi := ← choice abiChoices node }
  | "language_standard" =>
    return { options with languageStandard := ← text "a string" node }
  | "macros" => return { options with macros := ← boolean node }
  | "additional_arguments" =>
    return { options with additionalArguments := ← list (text "a string") node }
  | _ => .ok options

def scopeChoices : List (String × RenameScope) :=
  [("any", .any), ("static", .onlyStatic), ("instance", .onlyInstance)]

def constructorChoices : List (String × ConstructorPolicy) :=
  [("first-declared", .firstDeclared), ("none", .noConstructor)]

structure RenameFields where
  source : Option String
  target : Option String
  scope : Option RenameScope

def setRenameField (name : String) (node : Node) (fields : RenameFields) :
    Decoded RenameFields :=
  match name with
  | "from" => return { fields with source := some (← text "a string" node) }
  | "to" => return { fields with target := some (← text "a string" node) }
  | "scope" => return { fields with scope := some (← choice scopeChoices node) }
  | _ => .ok fields

/-- A rename rule. Both names must be there. -/
def renameRule (node : Node) : Decoded RenameRule := do
  let fields ← update "struct RenameRule" ["from", "to", "scope"] setRenameField
    ⟨none, none, none⟩ node
  let missing (name : String) (position : Nat) : Decoded RenameRule :=
    within node.span <|
      if (entries? node).isSome then misfit ("missing field `" ++ name ++ "`")
      else misfit ("invalid length " ++ toString position ++
        ", expected struct RenameRule with 3 elements")
  match fields.source, fields.target with
  | some source, some target => .ok ⟨source, target, fields.scope.getD .any⟩
  | none, _ => missing "from" 0
  | some _, none => missing "to" 1

def aliasTable (node : Node) : Decoded AliasTable :=
  match entries? node with
  | some entries =>
    within node.span <| entries.foldlM
      (fun table (key, host) =>
        within (host.span <|> some key.span)
          ((text "a string" host).map (table.insert key.name))) .empty
  | none => invalidType node "a map"

def setGenerator (name : String) (node : Node) (settings : GeneratorSettings) :
    Decoded GeneratorSettings :=
  match name with
  | "namespace" => return { settings with namespaceName := ← text "a string" node }
  | "main_class" => return { settings with mainClass := ← text "a string" node }
  | "native_lib" => return { settings with nativeLibrary := ← text "a string" node }
  | "header_include" => return { settings with headerInclude := ← text "a string" node }
  | "ignore" => return { settings with denylist := ⟨← list (text "a string") node⟩ }
  | "type_aliases" => return { settings with aliases := ← aliasTable node }
  | "renames" => return { settings with renames := ← list renameRule node }
  | "constructors" =>
    return { settings with constructors := ← choice constructorChoices node }
  | "property_prefix" => return { settings with propertyStart := ← text "a string" node }
  | _ => .ok settings

def setProject (name : String) (node : Node) (settings : ProjectSettings) :
    Decoded ProjectSettings :=
  match name with
  | "paths" =>
    return { settings with
      paths := ← update "struct PathsConfig"
        ["header", "declarations", "glue_output", "binding_output"] setPath .default node }
  | "parser" =>
    return { settings with
      parser := ← update "struct ParserOptions"
        ["target_cpu", "abi", "language_standard", "macros", "additional_arguments"]
        setParserOption .default node }
  | "generator" =>
    return { settings with
      generator := ← update "struct GeneratorConfig"
        ["namespace", "main_class", "native_lib", "header_include", "ignore", "type_aliases",
          "renames", "constructors", "property_prefix"] setGenerator .default node }
  | _ => .ok settings

end Settings

def ProjectSettings.ofToml (text : String) : Except SettingsFault ProjectSettings :=
  match Toml.Table.ofText? text with
  | none => .error .malformed
  | some table =>
    let whole : Span := ⟨text.length, text.length⟩
    (Settings.update "struct ProjectConfig" [] Settings.setProject .default
      ⟨some whole, .table .header table⟩).mapError fun fault =>
        .unfit fault.message (.ofSpan text.toList (fault.span.getD whole))

/-- Why settings cannot be had from a file. -/
inductive SettingsFileFault where
  | unreadable (path : FilePath) (fault : FileFault)
  | unfit (path : FilePath) (fault : SettingsFault)
deriving DecidableEq, Repr

namespace SettingsFileFault

def message : SettingsFileFault → String
  | unreadable path fault => "failed to read config " ++ path.text ++ ": " ++ fault.message
  | unfit path fault => "failed to parse config " ++ path.text ++ ": " ++ fault.report

def causes : SettingsFileFault → List String
  | unreadable _ fault => [fault.message]
  | unfit _ fault => [fault.report]

end SettingsFileFault

def ProjectSettings.ofFile {m : Type → Type} [Monad m] [FileAccess m] (path : FilePath) :
    ExceptT SettingsFileFault m ProjectSettings := do
  let text ← (FileAccess.readText path).adapt (.unreadable path)
  (ExceptT.mk (pure (ProjectSettings.ofToml text))).adapt (.unfit path)

end NativeBindings
