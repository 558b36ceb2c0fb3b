import NativeBindings.Generation.Generate
import NativeBindings.Proofs.Generation.Claims
import Mathlib.Data.List.Flatten

/-!
# Accounts of a run

An account of a run says of each class, and of each function of a selected class, what speaks
against it, and that documents and report hold this and nothing else. Every successful run has one,
in which the functions of all selected classes claim their export names in order.
-/

namespace NativeBindings

/-- A function that a selected class might export. -/
structure Candidate where
  owner : ScopedClass
  function : MemberFunction

def Candidate.exportName (x : Candidate) : String := x.owner.exportName x.function

/-- What is decided about a candidate; nothing speaks against one that is exported. -/
abbrev CandidateVerdict := Candidate × Option SkipReason

def CandidateVerdict.record? : CandidateVerdict → Option SkipRecord
  | (_, none) => none
  | (x, some reason) => some ⟨x.owner.qualifiedName, some x.function.name, reason⟩

/-- What is decided about the functions of a selected class. -/
structure ClassAccount where
  owner : ScopedClass
  /-- Constructors that the policy drops. -/
  dropped : List CandidateVerdict
  /-- All other functions, in the order in which they claim export names. -/
  considered : List CandidateVerdict

namespace ClassAccount

def exported (a : ClassAccount) : List Candidate := Claims.granted a.considered

def glue (rules : GenerationRules) (a : ClassAccount) : GlueClass :=
  { qualifiedName := a.owner.qualifiedName
    functions := a.exported.map fun x => rules.binding.index.glueFunction x.owner x.function
    dispose := a.owner.glueDispose }

def binding (rules : GenerationRules) (a : ClassAccount) : BindingClass :=
  { wrapperName := rules.binding.wrapperName a.owner
    members := a.exported.map fun x => rules.binding.bindFunction x.owner x.function x.exportName
    dispose := a.owner.importDispose }

def report (rules : GenerationRules) (a : ClassAccount) : ClassReport :=
  { qualifiedName := a.owner.qualifiedName
    wrapper := rules.binding.wrapperName a.owner
    exportNames := a.exported.map (·.exportName) ++ [a.owner.disposeName] }

/-- What is left out of the class: dropped constructors first. -/
def skipped (a : ClassAccount) : List SkipRecord :=
  (a.dropped ++ a.considered).filterMap (·.record?)

end ClassAccount

/-- An account of everything a run decides, which its result agrees with. -/
structure RunAccount (settings : GeneratorSettings) (tree : Declarations) (result : Generated) where
  classes : List ClassVerdict
  selected : List ClassAccount
  /-- Each class of the tree has one verdict, in pre-order. -/
  collected : classes.map (·.1) = tree.scopedClasses
  /-- Each class that nothing speaks against has one account. -/
  owners : selected.map (·.owner) = classes.filterMap (·.selected?)
  /-- Each constructor that the policy drops is left out, for the reason of the policy. -/
  dropped : ∀ a ∈ selected, a.dropped =
    (settings.constructors.dropped a.owner.decl.constructors).map fun function =>
      (⟨a.owner, function⟩, some settings.constructors.reason)
  /-- Each other function has one verdict, the constructor first. -/
  considered : ∀ a ∈ selected, a.considered.map (·.1) =
    ((settings.constructors.bound? a.owner.decl.constructors).toList ++ a.owner.decl.functions).map
      fun function => ⟨a.owner, function⟩
  glue : result.glue.classes =
    selected.map (·.glue (.ofSelected settings (selected.map (·.owner))))
  bindings : result.bindings.classes =
    selected.map (·.binding (.ofSelected settings (selected.map (·.owner))))
  entries : result.report.classes =
    selected.map (·.report (.ofSelected settings (selected.map (·.owner))))
  /-- Records of classes come first, then those of the functions of each selected class. -/
  skipped : result.report.skipped =
    classes.filterMap (·.record?) ++ selected.flatMap (·.skipped)

theorem ClassVerdict.selected?_eq_some_iff {v : ClassVerdict} {c : ScopedClass} :
    v.selected? = some c ↔ v = (c, none) := by
  obtain ⟨d, _ | reason⟩ := v <;> simp [ClassVerdict.selected?]

theorem ClassVerdict.selected_sublist (verdicts : List ClassVerdict) :
    (verdicts.filterMap (·.selected?)).Sublist (verdicts.map (·.1)) := by
  induction verdicts with
  | nil => exact List.Sublist.slnil
  | cons v rest ih =>
    obtain ⟨c, _ | reason⟩ := v
    · exact ih.cons_cons c
    · exact ih.cons c

theorem ClassVerdict.function_eq_none_of_record? {verdicts : List ClassVerdict}
    {record : SkipRecord} (h : record ∈ verdicts.filterMap (·.record?)) :
    record.function = none := by
  obtain ⟨⟨c, _ | reason⟩, -, hr⟩ := List.mem_filterMap.mp h
  · cases hr
  · cases hr
    rfl

theorem ClassAccount.function_ne_none_of_mem_skipped {a : ClassAccount} {record : SkipRecord}
    (h : record ∈ a.skipped) : record.function ≠ none := by
  obtain ⟨⟨x, _ | reason⟩, -, hr⟩ := List.mem_filterMap.mp h
  · cases hr
  · cases hr
    exact Option.some_ne_none _

theorem ConstructorPolicy.bound_subset (policy : ConstructorPolicy)
    (constructors : List MemberFunction) : (policy.bound? constructors).toList ⊆ constructors := by
  intro function hf
  rw [← policy.bound?_append_dropped constructors]
  exact List.mem_append_left _ hf

theorem ConstructorPolicy.admitted_subset (policy : ConstructorPolicy) (c : NativeClass) :
    (policy.bound? c.constructors).toList ++ c.functions ⊆ c.members := by
  intro function hf
  rcases List.mem_append.mp hf with hbound | hfunction
  · exact List.mem_append_left _ (policy.bound_subset c.constructors hbound)
  · exact List.mem_append_right _ hfunction

namespace RunAccount

variable {settings : GeneratorSettings} {tree : Declarations} {result : Generated}
  (account : RunAccount settings tree result)

def rules : GenerationRules := .ofSelected settings (account.selected.map (·.owner))

include account in
theorem owner_mem_scopedClasses {a : ClassAccount} (ha : a ∈ account.selected) :
    a.owner ∈ tree.scopedClasses := by
  rw [← account.collected]
  apply (ClassVerdict.selected_sublist account.classes).subset
  rw [← account.owners]
  exact List.mem_map_of_mem ha

include account in
theorem mem_members_of_mem_exported {a : ClassAccount} (ha : a ∈ account.selected) {x : Candidate}
    (hx : x ∈ a.exported) : x.owner = a.owner ∧ x.function ∈ a.owner.decl.members := by
  have hconsidered : x ∈ a.considered.map (·.1) :=
    List.mem_map_of_mem (Claims.mem_granted.mp hx)
  rw [account.considered a ha] at hconsidered
  obtain ⟨function, hf, rfl⟩ := List.mem_map.mp hconsidered
  exact ⟨rfl, settings.constructors.admitted_subset a.owner.decl hf⟩

theorem mem_entries_iff {name : String} :
    name ∈ result.report.classes.map (·.qualifiedName) ↔
      ∃ c, (c, none) ∈ account.classes ∧ c.qualifiedName = name := by
  have howners : result.report.classes.map (·.qualifiedName) =
      (account.classes.filterMap (·.selected?)).map (·.qualifiedName) := by
    rw [account.entries, List.map_map, ← account.owners, List.map_map]
    rfl
  rw [howners, List.mem_map]
  simp [ClassVerdict.selected?_eq_some_iff]

theorem mem_skipped_class_iff {name : String} {reason : SkipReason} :
    ⟨name, none, reason⟩ ∈ result.report.skipped ↔
      ∃ c, (c, some reason) ∈ account.classes ∧ c.qualifiedName = name := by
  rw [account.skipped, List.mem_append]
  constructor
  · rintro (h | h)
    · obtain ⟨⟨c, _ | found⟩, hv, hr⟩ := List.mem_filterMap.mp h
      · cases hr
      · cases hr
        exact ⟨c, hv, rfl⟩
    · obtain ⟨a, -, ha⟩ := List.mem_flatMap.mp h
      exact absurd rfl (ClassAccount.function_ne_none_of_mem_skipped ha)
  · rintro ⟨c, hc, rfl⟩
    exact Or.inl (List.mem_filterMap.mpr ⟨(c, some reason), hc, rfl⟩)

end RunAccount

namespace GenerationRules

/-- Candidates claim their export names unless their signatures speak against them. -/
def claims (rules : GenerationRules) : Claims Candidate :=
  ⟨fun x => rules.admission.fault? x.function, Candidate.exportName⟩

/-- The functions of a class that the constructor policy admits, as candidates. -/
def candidates (rules : GenerationRules) (c : ScopedClass) : List Candidate :=
  (rules.admitted c).map (⟨c, ·⟩)

def outcome (rules : GenerationRules) : CandidateVerdict → FunctionOutcome
  | (x, none) => rules.bind x.owner x.function
  | (x, some reason) => .skipped x.function.name reason

def ofAccount (rules : GenerationRules) (a : ClassAccount) : ClassBindings :=
  ⟨a.owner, rules.binding.wrapperName a.owner, a.dropped.map rules.outcome,
    a.considered.map rules.outcome⟩

variable (rules : GenerationRules)

theorem outcomes_eq_map (c : ScopedClass) (taken : List String) (functions : List MemberFunction) :
    rules.outcomes c taken functions =
      (rules.claims.verdicts taken (functions.map (⟨c, ·⟩))).map rules.outcome := by
  induction functions generalizing taken with
  | nil => rfl
  | cons function rest ih =>
    have hfault : rules.claims.fault? ⟨c, function⟩ = rules.admission.fault? function := rfl
    have hname : rules.claims.name ⟨c, function⟩ = c.exportName function := rfl
    rw [outcomes, List.map_cons, Claims.verdicts, hfault, hname]
    cases rules.admission.fault? function with
    | some reason => simp [ih, outcome]
    | none =>
      by_cases ht : c.exportName function ∈ taken
      · simp [ht, ih, outcome]
      · simp [ht, ih, outcome]

theorem filterMap_outcome {β : Type} (f : FunctionOutcome → Option β) (g : Candidate → β)
    (hb : ∀ x, f (rules.bind x.owner x.function) = some (g x))
    (hs : ∀ name reason, f (.skipped name reason) = none) (decided : List CandidateVerdict) :
    (decided.map rules.outcome).filterMap f = (Claims.granted decided).map g := by
  induction decided with
  | nil => rfl
  | cons v rest ih =>
    obtain ⟨x, _ | reason⟩ := v
    · rw [List.map_cons, outcome, List.filterMap_cons_some (hb x), ih]
      rfl
    · rw [List.map_cons, outcome, List.filterMap_cons_none (hs _ _), ih]
      rfl

theorem filterMap_record_outcome {c : ScopedClass} {decided : List CandidateVerdict}
    (h : ∀ v ∈ decided, v.1.owner = c) :
    (decided.map rules.outcome).filterMap (·.record? c.qualifiedName) =
      decided.filterMap (·.record?) := by
  rw [List.filterMap_map]
  apply List.filterMap_congr
  rintro ⟨x, reason?⟩ hv
  have howner : x.owner = c := h _ hv
  subst howner
  cases reason? <;> rfl

theorem glue_ofAccount (a : ClassAccount) : (rules.ofAccount a).glue = a.glue rules := by
  have hfunctions : (a.considered.map rules.outcome).filterMap (·.glue?) =
      a.exported.map fun x => rules.binding.index.glueFunction x.owner x.function :=
    rules.filterMap_outcome (·.glue?) _ (fun _ => rfl) (fun _ _ => rfl) a.considered
  rw [ClassBindings.glue, ofAccount, hfunctions]
  rfl

theorem binding_ofAccount (a : ClassAccount) : (rules.ofAccount a).binding = a.binding rules := by
  have hmembers : (a.considered.map rules.outcome).filterMap (·.member?) =
      a.exported.map fun x => rules.binding.bindFunction x.owner x.function x.exportName :=
    rules.filterMap_outcome (·.member?) _ (fun _ => rfl) (fun _ _ => rfl) a.considered
  rw [ClassBindings.binding, ofAccount, hmembers]
  rfl

theorem exportNames_glue (a : ClassAccount) :
    (a.glue rules).functions.map (·.exportName) = a.exported.map (·.exportName) := by
  rw [ClassAccount.glue, List.map_map]
  rfl

theorem report_ofAccount (a : ClassAccount) : (rules.ofAccount a).report = a.report rules := by
  rw [ClassBindings.report, glue_ofAccount, GlueClass.exportNames, exportNames_glue]
  rfl

theorem functionExports_ofAccount (a : ClassAccount) :
    (rules.ofAccount a).functionExports = a.exported.map (·.exportName) := by
  rw [ClassBindings.functionExports, glue_ofAccount, exportNames_glue]

def account (taken : List String) (c : ScopedClass) : ClassAccount :=
  { owner := c
    dropped := (rules.constructors.dropped c.decl.constructors).map fun function =>
      (⟨c, function⟩, some rules.constructors.reason)
    considered := rules.claims.verdicts taken (rules.candidates c) }

/-- The accounts of classes in order; what one exports is gone for all after it. -/
def accounts (taken : List String) : List ScopedClass → List ClassAccount
  | [] => []
  | c :: rest =>
    let a := rules.account taken c
    a :: accounts (a.exported.map (·.exportName) ++ taken) rest

theorem ofAccount_account (taken : List String) (c : ScopedClass) :
    rules.ofAccount (rules.account taken c) = rules.bindClass taken c := by
  simp [ofAccount, account, bindClass, outcomes_eq_map, candidates, outcome, Function.comp_def]

theorem bindClasses_eq_map (taken : List String) (classes : List ScopedClass) :
    rules.bindClasses taken classes = (rules.accounts taken classes).map rules.ofAccount := by
  induction classes generalizing taken with
  | nil => rfl
  | cons c rest ih =>
    rw [bindClasses, accounts, List.map_cons, ← ofAccount_account, functionExports_ofAccount, ih]

@[simp] theorem accounts_owner (taken : List String) (classes : List ScopedClass) :
    (rules.accounts taken classes).map (·.owner) = classes := by
  induction classes generalizing taken with
  | nil => rfl
  | cons c rest ih =>
    rw [accounts, List.map_cons, ih]
    rfl

/-- The loop over classes decides about all candidates as one sequence of claims. -/
theorem flatMap_considered_accounts (taken : List String) (classes : List ScopedClass) :
    (rules.accounts taken classes).flatMap (·.considered) =
      rules.claims.verdicts taken (classes.flatMap rules.candidates) := by
  induction classes generalizing taken with
  | nil => rfl
  | cons c rest ih =>
    rw [accounts, List.flatMap_cons, List.flatMap_cons, Claims.verdicts_append, ih]
    rfl

theorem exists_account_of_mem_accounts {taken : List String} {classes : List ScopedClass}
    {a : ClassAccount} (ha : a ∈ rules.accounts taken classes) :
    ∃ taken', a = rules.account taken' a.owner := by
  induction classes generalizing taken with
  | nil => exact absurd ha List.not_mem_nil
  | cons c rest ih =>
    rcases List.mem_cons.mp ha with rfl | ha
    · exact ⟨taken, rfl⟩
    · exact ih ha

theorem skipped_ofAccount (taken : List String) (c : ScopedClass) :
    (rules.ofAccount (rules.account taken c)).skipped = (rules.account taken c).skipped := by
  rw [ClassBindings.skipped, ClassAccount.skipped, ofAccount, ← List.map_append]
  apply filterMap_record_outcome
  intro v hv
  rcases List.mem_append.mp hv with hv | hv
  · obtain ⟨function, -, rfl⟩ := List.mem_map.mp hv
    rfl
  · have hx : v.1 ∈ rules.candidates c := by
      rw [← rules.claims.verdicts_fst taken (rules.candidates c)]
      exact List.mem_map_of_mem hv
    obtain ⟨function, -, hf⟩ := List.mem_map.mp hx
    rw [← hf]
    rfl

end GenerationRules

namespace Denylist

theorem classVerdicts_fst (denylist : Denylist) (ignored reserved : List String)
    (classes : List ScopedClass) :
    (denylist.classVerdicts ignored reserved classes).map (·.1) = classes := by
  induction classes generalizing ignored reserved with
  | nil => rfl
  | cons c rest ih =>
    rw [classVerdicts]
    split
    · rw [List.map_cons, ih]
    · split <;> rw [List.map_cons, ih]

end Denylist

namespace GeneratorSettings

theorem generate_eq_ok_iff {settings : GeneratorSettings} {tree : Declarations}
    {result : Generated} :
    settings.generate tree = .ok result ↔
      tree.validate = .ok () ∧ settings.assemble tree = result := by
  unfold generate
  cases tree.validate with
  | error fault => simp
  | ok _ => simp

theorem selectedClasses_sublist (settings : GeneratorSettings) (tree : Declarations) :
    (settings.selectedClasses tree).Sublist tree.scopedClasses := by
  rw [← settings.denylist.classVerdicts_fst [] [] tree.scopedClasses]
  exact ClassVerdict.selected_sublist _

def runRules (settings : GeneratorSettings) (tree : Declarations) : GenerationRules :=
  .ofSelected settings (settings.selectedClasses tree)

/-- The accounts of all selected classes; the names of their destructors are taken from the
start. -/
def classAccounts (settings : GeneratorSettings) (tree : Declarations) : List ClassAccount :=
  (settings.runRules tree).accounts ((settings.selectedClasses tree).map (·.disposeName))
    (settings.selectedClasses tree)

theorem classAccounts_owner (settings : GeneratorSettings) (tree : Declarations) :
    (settings.classAccounts tree).map (·.owner) = settings.selectedClasses tree :=
  (settings.runRules tree).accounts_owner _ _

theorem exists_account_of_mem_classAccounts {settings : GeneratorSettings} {tree : Declarations}
    {a : ClassAccount} (ha : a ∈ settings.classAccounts tree) :
    ∃ taken, a = (settings.runRules tree).account taken a.owner :=
  (settings.runRules tree).exists_account_of_mem_accounts ha

theorem classBindings_eq_map (settings : GeneratorSettings) (tree : Declarations) :
    settings.classBindings tree =
      (settings.classAccounts tree).map (settings.runRules tree).ofAccount :=
  (settings.runRules tree).bindClasses_eq_map _ _

def runAccount (settings : GeneratorSettings) (tree : Declarations) :
    RunAccount settings tree (settings.assemble tree) where
  classes := settings.classVerdicts tree
  selected := settings.classAccounts tree
  collected := settings.denylist.classVerdicts_fst _ _ _
  owners := settings.classAccounts_owner tree
  dropped := by
    intro a ha
    obtain ⟨taken, h⟩ := exists_account_of_mem_classAccounts ha
    rw [h]
    rfl
  considered := by
    intro a ha
    obtain ⟨taken, h⟩ := exists_account_of_mem_classAccounts ha
    rw [h]
    exact Claims.verdicts_fst _ taken ((settings.runRules tree).candidates a.owner)
  glue := by
    rw [classAccounts_owner]
    change (settings.classBindings tree).map (·.glue) = _
    rw [classBindings_eq_map, List.map_map]
    exact List.map_congr_left fun a _ => GenerationRules.glue_ofAccount _ a
  bindings := by
    rw [classAccounts_owner]
    change (settings.classBindings tree).map (·.binding) = _
    rw [classBindings_eq_map, List.map_map]
    exact List.map_congr_left fun a _ => GenerationRules.binding_ofAccount _ a
  entries := by
    rw [classAccounts_owner]
    change (settings.classBindings tree).map (·.report) = _
    rw [classBindings_eq_map, List.map_map]
    exact List.map_congr_left fun a _ => GenerationRules.report_ofAccount _ a
  skipped := by
    change _ ++ (settings.classBindings tree).flatMap (·.skipped) = _
    rw [classBindings_eq_map, List.flatMap_map]
    congr 1
    apply List.flatMap_congr
    intro a ha
    obtain ⟨taken, h⟩ := exists_account_of_mem_classAccounts ha
    rw [h]
    exact GenerationRules.skipped_ofAccount _ _ _

theorem rules_runAccount (settings : GeneratorSettings) (tree : Declarations) :
    (settings.runAccount tree).rules = settings.runRules tree :=
  congrArg (GenerationRules.ofSelected settings) (settings.classAccounts_owner tree)

theorem glue_assemble (settings : GeneratorSettings) (tree : Declarations) :
    (settings.assemble tree).glue.classes =
      (settings.classAccounts tree).map (·.glue (settings.runRules tree)) := by
  rw [← rules_runAccount]
  exact (settings.runAccount tree).glue

theorem bindings_assemble (settings : GeneratorSettings) (tree : Declarations) :
    (settings.assemble tree).bindings.classes =
      (settings.classAccounts tree).map (·.binding (settings.runRules tree)) := by
  rw [← rules_runAccount]
  exact (settings.runAccount tree).bindings

theorem fault?_of_mem_exported {settings : GeneratorSettings} {tree : Declarations}
    {a : ClassAccount} (ha : a ∈ (settings.runAccount tree).selected) {x : Candidate}
    (hx : x ∈ a.exported) : (settings.runRules tree).admission.fault? x.function = none := by
  obtain ⟨taken, h⟩ := exists_account_of_mem_classAccounts ha
  rw [h] at hx
  exact Claims.fault?_eq_none_of_granted _ hx

/-- In the account of a run, all candidates claim their names one after another; the names of
destructors are taken before. -/
theorem flatMap_considered_runAccount (settings : GeneratorSettings) (tree : Declarations) :
    (settings.runAccount tree).selected.flatMap (·.considered) =
      (settings.runRules tree).claims.verdicts
        ((settings.selectedClasses tree).map (·.disposeName))
        ((settings.selectedClasses tree).flatMap (settings.runRules tree).candidates) :=
  (settings.runRules tree).flatMap_considered_accounts _ _

end GeneratorSettings

/-- Classes and functions that claim export names of each other. -/
def Declarations.colliding : Declarations :=
  let first := (NativeClass.ofName "A").addConstructor (.constructor "A")
    |>.addConstructor (.constructor "A")
    |>.addFunction (.method "b_Dispose" .void)
    |>.addFunction (.method "b_c" .void)
    |>.addFunction (.method "operator+" .void)
    |>.addFunction (.method "s_x" .void)
    |>.addFunction { MemberFunction.method "x" .void with isStatic := true }
  let second := (NativeClass.ofName "A_b").addFunction (.method "c" .void)
  let third := (NativeClass.ofName "B").addClass (.ofName "A")
  ⟨none, [first, second, third]⟩

theorem GeneratorSettings.generate_colliding :
    GeneratorSettings.default.generate .colliding =
      .ok (GeneratorSettings.default.assemble .colliding) :=
  generate_eq_ok_iff.mpr ⟨rfl, rfl⟩

end NativeBindings
