import NativeBindings.Proofs.Native.FirstFault

/-!
# Scopes in faults

A fault calls a scope by the path of the class that opens it, as the list of all classes does. The
label of the top level is an exception that can go wrong: a class of that name is taken for the top
level, and drops out of the paths through it.
-/

namespace NativeBindings

theorem scopePath_join (outer name : String) (rest : List String) :
    scopePath ((outer ++ "::" ++ name) :: rest) = scopePath (outer :: name :: rest) := by
  cases rest with
  | nil => rfl
  | cons next rest => simp only [scopePath_cons_cons, String.append_assoc]

theorem join_ne_rootScope (outer name : String) : outer ++ "::" ++ name ≠ rootScope := by
  intro heq
  have hcolon : ':' ∈ (outer ++ "::" ++ name).toList := by
    simp [String.toList_append]
  rw [heq] at hcolon
  exact absurd hcolon (by decide)

theorem foldl_innerScope {label : String} (h : label ≠ rootScope) (names : List String) :
    names.foldl innerScope label = scopePath (label :: names) := by
  induction names generalizing label with
  | nil => exact String.intercalate_singleton.symm
  | cons name rest ih =>
    rw [List.foldl_cons, innerScope, if_neg h, ih (join_ne_rootScope label name), scopePath_join]

/-- The chain without the classes at its front that are called like the top level. -/
def belowRoot (chain : List String) : List String := chain.dropWhile (· == rootScope)

theorem scopeLabel_root_cons (rest : List String) :
    scopeLabel (rootScope :: rest) = scopeLabel rest := rfl

theorem scopeLabel_cons_of_ne {name : String} (h : name ≠ rootScope) (rest : List String) :
    scopeLabel (name :: rest) = scopePath (name :: rest) :=
  foldl_innerScope h rest

theorem scopeLabel_eq (chain : List String) :
    scopeLabel chain = if belowRoot chain = [] then rootScope else scopePath (belowRoot chain) := by
  induction chain with
  | nil => rfl
  | cons name rest ih =>
    by_cases hname : name = rootScope
    · subst hname
      have hbelow : belowRoot (rootScope :: rest) = belowRoot rest :=
        List.dropWhile_cons_of_pos (beq_self_eq_true rootScope)
      rw [scopeLabel_root_cons, ih, hbelow]
    · have hbelow : belowRoot (name :: rest) = name :: rest :=
        List.dropWhile_cons_of_neg (by simpa using hname)
      rw [scopeLabel_cons_of_ne hname, hbelow, if_neg (List.cons_ne_nil name rest)]

theorem length_scopeLabel_le {chain : List String} (h : chain ≠ []) :
    (scopeLabel chain).length ≤ (scopePath chain).length := by
  induction chain with
  | nil => exact absurd rfl h
  | cons name rest ih =>
    by_cases hname : name = rootScope
    · subst hname
      cases rest with
      | nil => exact Nat.le_refl _
      | cons next rest =>
        have hrest := ih (List.cons_ne_nil next rest)
        rw [scopeLabel_root_cons, scopePath_cons_cons, String.length_append]
        omega
    · rw [scopeLabel_cons_of_ne hname]

/-- The label of a chain is its path unless there is a class called like the top level at its front,
with another one inside. -/
theorem scopeLabel_eq_scopePath_iff {chain : List String} (h : chain ≠ []) :
    scopeLabel chain = scopePath chain ↔
      chain.head? ≠ some rootScope ∨ chain = [rootScope] := by
  obtain ⟨name, rest, rfl⟩ := List.exists_cons_of_ne_nil h
  by_cases hname : name = rootScope
  · subst hname
    cases rest with
    | nil => exact iff_of_true rfl (.inr rfl)
    | cons next rest =>
      refine iff_of_false ?_ (by simp)
      intro heq
      have hlength := length_scopeLabel_le (List.cons_ne_nil next rest)
      have hroot : 0 < rootScope.length := by decide
      rw [← scopeLabel_root_cons, heq, scopePath_cons_cons, String.length_append,
        String.length_append] at hlength
      omega
  · exact iff_of_true (scopeLabel_cons_of_ne hname rest) (.inl (by simpa using hname))

theorem scopePath_ne_rootScope {name : String} (h : name ≠ rootScope) (rest : List String) :
    scopePath (name :: rest) ≠ rootScope := by
  cases rest with
  | nil => exact fun heq => h (String.intercalate_singleton.symm.trans heq)
  | cons next rest =>
    rw [scopePath_cons_cons]
    exact join_ne_rootScope name _

theorem NativeClass.exists_owner_of_mem_inScope {c : NativeClass} {enclosing : List String}
    {x : ScopedClass} (hx : x ∈ c.inScope enclosing) :
    x = ⟨c, enclosing⟩ ∨
      ∃ d ∈ c.inScope enclosing, d.path = x.enclosing ∧ x.decl ∈ d.decl.classes := by
  induction c using NativeClass.nestedInduction generalizing enclosing with
  | step c ih =>
    rw [inScope_eq, List.mem_cons, allInScope_eq_flatMap] at hx
    rcases hx with rfl | hx
    · exact .inl rfl
    · obtain ⟨nested, hn, hx⟩ := List.mem_flatMap.mp hx
      have hsubset : nested.inScope (enclosing ++ [c.name]) ⊆ c.inScope enclosing := by
        intro d hd
        rw [inScope_eq, allInScope_eq_flatMap]
        exact List.mem_cons_of_mem _ (List.mem_flatMap.mpr ⟨nested, hn, hd⟩)
      rcases ih nested hn hx with rfl | ⟨d, hd, howner⟩
      · refine .inr ⟨⟨c, enclosing⟩, ?_, rfl, hn⟩
        rw [inScope_eq]
        exact List.mem_cons_self
      · exact .inr ⟨d, hsubset hd, howner⟩

theorem Declarations.exists_owner {tree : Declarations} {c : ScopedClass}
    (hc : c ∈ tree.scopedClasses) (hn : c.isNested = true) :
    ∃ d ∈ tree.scopedClasses, d.path = c.enclosing ∧ c.decl ∈ d.decl.classes := by
  have hclasses := NativeClass.allInScope_eq_flatMap [] tree.classes
  rw [scopedClasses, hclasses] at hc ⊢
  obtain ⟨top, htop, hc⟩ := List.mem_flatMap.mp hc
  rcases NativeClass.exists_owner_of_mem_inScope hc with rfl | ⟨d, hd, howner⟩
  · cases hn
  · exact ⟨d, List.mem_flatMap.mpr ⟨top, htop, hd⟩, howner⟩

namespace Check

/-- The class that is looked at, or the class with the function that is looked at. -/
def visit : Check → Visit
  | className visit | siblingName visit => visit
  | functionName visit _ | functionTypes visit _ => visit

def function? : Check → Option MemberFunction
  | className _ | siblingName _ => none
  | functionName _ function | functionTypes _ function => some function

/-- The chain that the label in the fault is made of. -/
def chain : Check → List String
  | className visit | siblingName visit => visit.enclosing
  | functionName visit _ | functionTypes visit _ => visit.scopedClass.path

theorem of_mem_checks {visit : Visit} {check : Check} (h : check ∈ visit.checks) :
    check.visit = visit ∧ ∀ function, check.function? = some function →
      function ∈ visit.decl.members := by
  simp only [Visit.checks, List.mem_cons, List.mem_flatMap, List.not_mem_nil, or_false] at h
  rcases h with rfl | rfl | ⟨function, hf, rfl | rfl⟩
  · exact ⟨rfl, fun _ h => absurd h.symm (Option.some_ne_none _)⟩
  · exact ⟨rfl, fun _ h => absurd h.symm (Option.some_ne_none _)⟩
  · exact ⟨rfl, fun _ h => Option.some.inj h ▸ hf⟩
  · exact ⟨rfl, fun _ h => Option.some.inj h ▸ hf⟩

end Check

namespace DeclarationFault

def label : DeclarationFault → String
  | emptyClassName scope _ => scope
  | duplicateClass scope _ _ => scope
  | emptyFunctionName owner _ => owner
  | emptyTypeName owner _ _ => owner

theorem label_fault (check : Check) : check.fault.label = scopeLabel check.chain := by
  cases check <;> rfl

end DeclarationFault

namespace Declarations

/-- The text stands for the scope that holds a class: `<root>` for the top level and for nothing
else, and the qualified name of the class around any other. -/
structure NamesScopeOf (tree : Declarations) (c : ScopedClass) (scope : String) : Prop where
  top : scope = rootScope ↔ c.isNested = false
  nested : c.isNested = true → ∃ d ∈ tree.scopedClasses, d.path = c.enclosing ∧
    c.decl ∈ d.decl.classes ∧ scope = d.qualifiedName

/-- A fault about a class, or about a function of it, names scopes as the list of all classes
does. -/
def NamesAlike (tree : Declarations) (c : ScopedClass) : DeclarationFault → Prop
  | .emptyClassName scope _ => tree.NamesScopeOf c scope
  | .duplicateClass scope _ _ => tree.NamesScopeOf c scope
  | .emptyFunctionName owner _ => owner = c.qualifiedName
  | .emptyTypeName owner _ _ => owner = c.qualifiedName

def IsFirstViolation (tree : Declarations) (check : Check) : Prop :=
  ∃ before after, tree.checks = before ++ check :: after ∧
    (∀ earlier ∈ before, earlier.isViolated = false) ∧ check.isViolated = true

variable {tree : Declarations} {c : ScopedClass}

theorem namesScopeOf_scopeLabel_iff (hc : c ∈ tree.scopedClasses) :
    tree.NamesScopeOf c (scopeLabel c.enclosing) ↔ c.enclosing.head? ≠ some rootScope := by
  cases hnested : c.enclosing with
  | nil =>
    have htop : c.isNested = false := by simp [ScopedClass.isNested, hnested]
    refine iff_of_true ⟨iff_of_true rfl htop, fun h => ?_⟩ (by simp)
    rw [htop] at h
    cases h
  | cons name rest =>
    have hinside : c.isNested = true := by simp [ScopedClass.isNested, hnested]
    constructor
    · rintro ⟨htop, hlabel⟩
      obtain ⟨d, -, hpath, -, hname⟩ := hlabel hinside
      rw [ScopedClass.qualifiedName, hpath, hnested,
        scopeLabel_eq_scopePath_iff (List.cons_ne_nil name rest)] at hname
      rcases hname with hhead | hroot
      · exact hhead
      · rw [hroot, hinside] at htop
        exact absurd (htop.mp rfl) (by simp)
    · intro hhead
      have hname : name ≠ rootScope := by simpa using hhead
      rw [scopeLabel_cons_of_ne hname]
      refine ⟨?_, fun _ => ?_⟩
      · exact iff_of_false (scopePath_ne_rootScope hname rest) (by simp [hinside])
      · obtain ⟨d, hd, hpath, hdecl⟩ := exists_owner hc hinside
        exact ⟨d, hd, hpath, hdecl, by rw [ScopedClass.qualifiedName, hpath, hnested]⟩

theorem scopeLabel_path_iff (c : ScopedClass) :
    scopeLabel c.path = c.qualifiedName ↔ c.enclosing.head? ≠ some rootScope := by
  have hpath : c.path ≠ [] := by simp [ScopedClass.path]
  rw [ScopedClass.qualifiedName, scopeLabel_eq_scopePath_iff hpath, ScopedClass.path]
  cases c.enclosing with
  | nil => simp [or_comm, em]
  | cons name rest => simp

theorem namesAlike_fault_iff {check : Check} (hc : check.visit.scopedClass ∈ tree.scopedClasses) :
    tree.NamesAlike check.visit.scopedClass check.fault ↔
      check.visit.enclosing.head? ≠ some rootScope := by
  cases check with
  | className visit => exact namesScopeOf_scopeLabel_iff hc
  | siblingName visit => exact namesScopeOf_scopeLabel_iff hc
  | functionName visit function => exact scopeLabel_path_iff visit.scopedClass
  | functionTypes visit function => exact scopeLabel_path_iff visit.scopedClass

/-- A fault names scopes as the list of all classes does, unless what is at fault is nested in a
top-level class called `<root>`: then the label is the path without all names `<root>` at its
front. -/
theorem fault_names_scopes_iff {fault : DeclarationFault} (h : tree.validate = .error fault) :
    ∃ check, tree.IsFirstViolation check ∧ check.fault = fault ∧
      check.visit.scopedClass ∈ tree.scopedClasses ∧
      (∀ function, check.function? = some function → function ∈ check.visit.decl.members) ∧
      fault.label = (if belowRoot check.chain = [] then rootScope
        else scopePath (belowRoot check.chain)) ∧
      (tree.NamesAlike check.visit.scopedClass fault ↔
        check.visit.enclosing.head? ≠ some rootScope) := by
  rw [validate_eq_verdict, Check.verdict_eq_error_iff] at h
  obtain ⟨before, check, after, hsplit, hbefore, hviolated, rfl⟩ := h
  have hcheck : check ∈ tree.checks := hsplit ▸ List.mem_append_right _ List.mem_cons_self
  obtain ⟨visit, hvisit, hmem⟩ := List.mem_flatMap.mp hcheck
  obtain ⟨rfl, hfunction⟩ := Check.of_mem_checks hmem
  have hclass : check.visit.scopedClass ∈ tree.scopedClasses := by
    rw [← scopedClass_walk]
    exact List.mem_map_of_mem hvisit
  refine ⟨check, ⟨before, after, hsplit, hbefore, hviolated⟩, rfl, hclass, hfunction, ?_,
    namesAlike_fault_iff hclass⟩
  rw [DeclarationFault.label_fault, scopeLabel_eq]

def doubled : Declarations :=
  ⟨none, [((NativeClass.ofName "Log").addClass (.ofName "Line")).addClass (.ofName "Line")]⟩

theorem fault_names_scopes_doubled :
    doubled.validate = .error (.duplicateClass "Log" "Line" none) ∧
      ∃ check, doubled.IsFirstViolation check ∧
        doubled.NamesAlike check.visit.scopedClass (.duplicateClass "Log" "Line" none) := by
  have h : doubled.validate = .error (.duplicateClass "Log" "Line" none) := rfl
  have houtside : ∀ c ∈ doubled.scopedClasses, c.enclosing.head? ≠ some rootScope := by decide
  obtain ⟨check, hfirst, -, hclass, -, -, hiff⟩ := fault_names_scopes_iff h
  exact ⟨h, check, hfirst, hiff.mpr (houtside _ hclass)⟩

/-- A class without a name, in a class inside one that is called like the top level. -/
def misled : Declarations :=
  let log := (NativeClass.ofName "Log").addClass (.ofName "")
  ⟨none, [(NativeClass.ofName "<root>").addClass log]⟩

/-- The fault puts the class into `Log`, and the list of all classes into `<root>::Log`. -/
theorem nested_in_root_misnamed :
    misled.validate = .error (.emptyClassName "Log" none) ∧
      ∃ c ∈ misled.scopedClasses, ∃ d ∈ misled.scopedClasses, c.name = "" ∧
        c.decl ∈ d.decl.classes ∧ c.enclosing = d.path ∧ d.qualifiedName = "<root>::Log" :=
  ⟨rfl, ⟨.ofName "", ["<root>", "Log"]⟩, .tail _ (.tail _ (.head _)),
    ⟨(NativeClass.ofName "Log").addClass (.ofName ""), ["<root>"]⟩, .tail _ (.head _), rfl, .head _,
    rfl, by decide⟩

end Declarations

end NativeBindings
