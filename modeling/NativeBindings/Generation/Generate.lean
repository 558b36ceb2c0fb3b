import NativeBindings.Binding.Document
import NativeBindings.Glue.Exports
import NativeBindings.Native.Declaration
import NativeBindings.Policy.Admission
import NativeBindings.Settings.Project

/-!
# Generation

From declarations to the two documents and the report, which says what a run wrote and what it left
out. All classes are gone through in order. A class is left out if the denylist denies it or a class
around it, and also if an earlier class has the export name of its destructor. Each bound function
of a selected class is exported and imported under one name, or recorded with the reason why it is
not.

An export name belongs to the first declaration that takes it. The destructors of all selected
classes take theirs before any function does, so a function never displaces one.
-/

namespace NativeBindings

/-- A class with bindings. -/
structure ClassReport where
  qualifiedName : String
  wrapper : String
  /-- Export names in the order of the glue, the one of the destructor last. -/
  exportNames : List String
deriving DecidableEq, Repr, Inhabited

/-- A class or function without bindings. -/
structure SkipRecord where
  owner : String
  /-- Nothing if the whole class is left out. -/
  function : Option String
  reason : SkipReason
deriving DecidableEq, Repr

/-- All classes with bindings and all that was left out, each in the order it was met. -/
structure GenerationReport where
  classes : List ClassReport
  skipped : List SkipRecord
deriving DecidableEq, Repr

namespace SkipRecord

def text (record : SkipRecord) : String :=
  let subject :=
    match record.function with
    | some function => record.owner ++ "::" ++ function
    | none => record.owner
  "  skipped " ++ subject ++ ": " ++ record.reason.message

end SkipRecord

namespace ClassReport

def text (report : ClassReport) : String :=
  "  " ++ report.qualifiedName ++ " -> " ++ report.wrapper ++ " (" ++
    toString report.exportNames.length ++ " exports)"

end ClassReport

namespace GenerationReport

def exportNames (report : GenerationReport) : List String :=
  report.classes.flatMap (·.exportNames)

def exportCount (report : GenerationReport) : Nat :=
  report.classes.foldr (fun entry count => entry.exportNames.length + count) 0

/-- What was left out of one class, and the class itself if it was. -/
def skippedIn (report : GenerationReport) (owner : String) : List SkipRecord :=
  report.skipped.filter (·.owner == owner)

def summary (report : GenerationReport) : String :=
  toString report.classes.length ++ " classes, " ++ toString report.exportCount ++ " exports, " ++
    toString report.skipped.length ++ " skipped"

/-- The report as text: counts, classes and skips, a line each. -/
def text (report : GenerationReport) : String :=
  String.join ((report.summary :: report.classes.map (·.text) ++ report.skipped.map (·.text)).map
    (· ++ "\n"))

end GenerationReport

/-- What is decided about a class; nothing speaks against a class that is selected. -/
abbrev ClassVerdict := ScopedClass × Option SkipReason

/-- Stands inside one of the classes with these qualified names. -/
def ScopedClass.isInside (c : ScopedClass) (outer : List String) : Bool :=
  c.ancestors.any outer.contains

namespace Denylist

/-- Decides about classes in order. `ignored` are the qualified names of the classes denied so far,
`reserved` the export names of the destructors selected so far. -/
def classVerdicts (denylist : Denylist) (ignored reserved : List String) :
    List ScopedClass → List ClassVerdict
  | [] => []
  | c :: rest =>
    if c.isInside ignored || denylist.deniesClass c then
      (c, some .ignored) :: denylist.classVerdicts (c.qualifiedName :: ignored) reserved rest
    else if reserved.contains c.disposeName then
      (c, some (.duplicateExport c.disposeName)) :: denylist.classVerdicts ignored reserved rest
    else (c, none) :: denylist.classVerdicts ignored (c.disposeName :: reserved) rest

end Denylist

namespace ClassVerdict

def selected? : ClassVerdict → Option ScopedClass
  | (c, none) => some c
  | (_, some _) => none

def record? : ClassVerdict → Option SkipRecord
  | (_, none) => none
  | (c, some reason) => some ⟨c.qualifiedName, none, reason⟩

end ClassVerdict

/-- What becomes of a function: it is exported and imported, or left out. -/
inductive FunctionOutcome where
  | bound (glue : GlueFunction) (member : BoundMember)
  | skipped (name : String) (reason : SkipReason)
deriving Repr

namespace FunctionOutcome

def glue? : FunctionOutcome → Option GlueFunction
  | bound glue _ => some glue
  | skipped _ _ => none

def member? : FunctionOutcome → Option BoundMember
  | bound _ m => some m
  | skipped _ _ => none

def record? (owner : String) : FunctionOutcome → Option SkipRecord
  | bound _ _ => none
  | skipped name reason => some ⟨owner, some name, reason⟩

end FunctionOutcome

/-- What the binding of one class consults. -/
structure GenerationRules where
  admission : Admission
  binding : BindingRules
  constructors : ConstructorPolicy

namespace GenerationRules

/-- The rules for a run in which these classes are selected. -/
def ofSelected (settings : GeneratorSettings) (selected : List ScopedClass) : GenerationRules :=
  let index := WrapperIndex.ofList
    (selected.map fun c => (c, settings.aliases.hostName c.name))
  { admission := ⟨settings.denylist, index⟩
    binding := ⟨settings.aliases, settings.naming, index⟩
    constructors := settings.constructors }

def bind (rules : GenerationRules) (c : ScopedClass) (function : MemberFunction) :
    FunctionOutcome :=
  .bound (rules.binding.index.glueFunction c function)
    (rules.binding.bindFunction c function (c.exportName function))

/-- What becomes of functions of one class, in order. `taken` are the export names that are gone. -/
def outcomes (rules : GenerationRules) (c : ScopedClass) (taken : List String) :
    List MemberFunction → List FunctionOutcome
  | [] => []
  | function :: rest =>
    match rules.admission.fault? function with
    | some reason => .skipped function.name reason :: rules.outcomes c taken rest
    | none =>
      let exportName := c.exportName function
      if taken.contains exportName then
        .skipped function.name (.duplicateExport exportName) :: rules.outcomes c taken rest
      else rules.bind c function :: rules.outcomes c (exportName :: taken) rest

/-- The functions of a class that the constructor policy admits, constructors first. -/
def admitted (rules : GenerationRules) (c : ScopedClass) : List MemberFunction :=
  (rules.constructors.bound? c.decl.constructors).toList ++ c.decl.functions

end GenerationRules

def ConstructorPolicy.reason : ConstructorPolicy → SkipReason
  | firstDeclared => .extraConstructor
  | noConstructor => .constructorPolicy

/-- Everything that generation makes of one selected class. -/
structure ClassBindings where
  owner : ScopedClass
  wrapperName : String
  /-- Constructors that the policy leaves out. -/
  dropped : List FunctionOutcome
  outcomes : List FunctionOutcome
deriving Repr

namespace ClassBindings

def glue (b : ClassBindings) : GlueClass :=
  ⟨b.owner.qualifiedName, b.outcomes.filterMap (·.glue?), b.owner.glueDispose⟩

def binding (b : ClassBindings) : BindingClass :=
  ⟨b.wrapperName, b.outcomes.filterMap (·.member?), b.owner.importDispose⟩

def report (b : ClassBindings) : ClassReport :=
  ⟨b.owner.qualifiedName, b.wrapperName, b.glue.exportNames⟩

def skipped (b : ClassBindings) : List SkipRecord :=
  (b.dropped ++ b.outcomes).filterMap (·.record? b.owner.qualifiedName)

/-- The export names that functions of the class take. -/
def functionExports (b : ClassBindings) : List String := b.glue.functions.map (·.exportName)

end ClassBindings

namespace GenerationRules

/-- The bindings of one class when some export names are gone. -/
def bindClass (rules : GenerationRules) (taken : List String) (c : ScopedClass) : ClassBindings :=
  { owner := c
    wrapperName := rules.binding.wrapperName c
    dropped := (rules.constructors.dropped c.decl.constructors).map fun function =>
      .skipped function.name rules.constructors.reason
    outcomes := rules.outcomes c taken (rules.admitted c) }

/-- The bindings of classes in order; what one class exports is gone for all after it. -/
def bindClasses (rules : GenerationRules) (taken : List String) :
    List ScopedClass → List ClassBindings
  | [] => []
  | c :: rest =>
    let b := rules.bindClass taken c
    b :: rules.bindClasses (b.functionExports ++ taken) rest

end GenerationRules

structure Generated where
  glue : GlueDocument
  bindings : BindingDocument
  report : GenerationReport
deriving Repr

/-- What is decided about each class of a tree. -/
def GeneratorSettings.classVerdicts (settings : GeneratorSettings) (tree : Declarations) :
    List ClassVerdict :=
  settings.denylist.classVerdicts [] [] tree.scopedClasses

def GeneratorSettings.selectedClasses (settings : GeneratorSettings) (tree : Declarations) :
    List ScopedClass :=
  (settings.classVerdicts tree).filterMap (·.selected?)

def GeneratorSettings.classBindings (settings : GeneratorSettings) (tree : Declarations) :
    List ClassBindings :=
  let selected := settings.selectedClasses tree
  (GenerationRules.ofSelected settings selected).bindClasses (selected.map (·.disposeName)) selected

/-- The documents and the report for a tree, valid or not. -/
def GeneratorSettings.assemble (settings : GeneratorSettings) (tree : Declarations) : Generated :=
  let classes := settings.classBindings tree
  { glue := ⟨settings.headerInclude, classes.map (·.glue)⟩
    bindings := ⟨settings.namespaceName, settings.libraryReference, classes.map (·.binding)⟩
    report :=
      { classes := classes.map (·.report)
        skipped := (settings.classVerdicts tree).filterMap (·.record?) ++
          classes.flatMap (·.skipped) } }

/-- Generates bindings for a tree that passes validation. -/
def GeneratorSettings.generate (settings : GeneratorSettings) (tree : Declarations) :
    Except DeclarationFault Generated :=
  match tree.validate with
  | .error fault => .error fault
  | .ok () => .ok (settings.assemble tree)

end NativeBindings
