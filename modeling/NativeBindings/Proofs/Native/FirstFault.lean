import NativeBindings.Proofs.Scope.PreOrder

/-!
# The first fault

Validation walks through the classes in pre-order and makes the same checks at each: of its name, of
the names of the siblings before it, and of its functions one by one. It accepts a tree exactly if
every scope is sound, and otherwise it reports the first check that is violated.
-/

namespace NativeBindings

open Text

/-- What validation asks of one function. -/
structure MemberFunction.IsSound (function : MemberFunction) : Prop where
  name : isAllBlank function.name = false
  params : ∀ param ∈ function.params, isAllBlank param.type.spelling = false
  returnType : function.isConstructor = false → isAllBlank function.returnType.spelling = false

/-- What validation asks of the classes of one scope, apart from what is nested in them. -/
structure SoundScope (classes : List NativeClass) : Prop where
  names : ∀ c ∈ classes, isAllBlank c.name = false
  distinct : (classes.map (·.name)).Nodup
  functions : ∀ c ∈ classes, ∀ function ∈ c.members, function.IsSound

namespace Declarations

/-- The classes of each scope: of the top level, and of the inside of every class. -/
def scopes (tree : Declarations) : List (List NativeClass) :=
  tree.classes :: tree.scopedClasses.map (·.decl.classes)

def IsSound (tree : Declarations) : Prop := ∀ scope ∈ tree.scopes, SoundScope scope

end Declarations

theorem MemberFunction.validate_eq_ok_iff {function : MemberFunction} {owner : String} :
    function.validate owner = .ok () ↔ function.IsSound := by
  unfold MemberFunction.validate
  constructor
  · intro h
    split_ifs at h with hname htypes
    simp only [Bool.or_eq_true, Bool.and_eq_true, Bool.not_eq_true', List.any_eq_true, not_or,
      not_and, not_exists, Bool.not_eq_true] at hname htypes
    exact ⟨hname, htypes.2, htypes.1⟩
  · rintro ⟨hname, hparams, hreturn⟩
    have hany : (function.params.any fun param => isAllBlank param.type.spelling) = false := by
      simpa using hparams
    cases hkind : function.isConstructor with
    | true => simp [hname, hany]
    | false => simp [hname, hany, hreturn hkind]

private theorem validateSiblings_eq_ok_iff_sound {scope : String} (enclosing : List String)
    {classes : List NativeClass}
    (h : ∀ c ∈ classes, c.validate scope [] = .ok () ↔ isAllBlank c.name = false ∧
      (∀ function ∈ c.members, function.IsSound) ∧
        ∀ x ∈ c.inScope enclosing, SoundScope x.decl.classes) :
    validateSiblings scope [] classes = .ok () ↔ SoundScope classes ∧
      ∀ x ∈ NativeClass.allInScope enclosing classes, SoundScope x.decl.classes := by
  rw [validateSiblings_eq_ok_iff, NativeClass.allInScope_eq_flatMap]
  -- Validation goes class by class, and soundness is of the whole scope and then of what is nested.
  constructor
  · rintro ⟨hclasses, hdistinct⟩
    have hsound := fun c hc => (h c hc).mp (hclasses c hc).1
    refine ⟨⟨fun c hc => (hsound c hc).1, hdistinct, fun c hc => (hsound c hc).2.1⟩, ?_⟩
    intro x hx
    obtain ⟨c, hc, hx⟩ := List.mem_flatMap.mp hx
    exact (hsound c hc).2.2 x hx
  · rintro ⟨hscope, hnested⟩
    refine ⟨fun c hc => ⟨(h c hc).mpr ?_, List.not_mem_nil⟩, hscope.distinct⟩
    exact ⟨hscope.names c hc, hscope.functions c hc,
      fun x hx => hnested x (List.mem_flatMap.mpr ⟨c, hc, hx⟩)⟩

theorem NativeClass.validate_eq_ok_iff_sound (c : NativeClass) (scope : String)
    (enclosing : List String) :
    c.validate scope [] = .ok () ↔ isAllBlank c.name = false ∧
      (∀ function ∈ c.members, function.IsSound) ∧
        ∀ x ∈ c.inScope enclosing, SoundScope x.decl.classes := by
  induction c using NativeClass.nestedInduction generalizing scope enclosing with
  | step c ih =>
    have hnested := validateSiblings_eq_ok_iff_sound (enclosing ++ [c.name])
      fun nested hn => ih nested hn (innerScope scope c.name) (enclosing ++ [c.name])
    rw [NativeClass.validate_eq_ok_iff, hnested, inScope_eq, List.forall_mem_cons]
    simp only [MemberFunction.validate_eq_ok_iff, List.not_mem_nil, not_false_eq_true, and_true]

theorem Declarations.validate_eq_ok_iff {tree : Declarations} :
    tree.validate = .ok () ↔ tree.IsSound := by
  rw [Declarations.validate, validateSiblings_eq_ok_iff_sound []
    fun c _ => c.validate_eq_ok_iff_sound rootScope [], IsSound, scopes, List.forall_mem_cons,
    List.forall_mem_map, scopedClasses]

/-- A class as a walk through its tree comes to it. -/
structure Visit where
  decl : NativeClass
  /-- The names of the classes around it, outermost first. -/
  enclosing : List String
  /-- The names of the siblings before it, the nearest first. -/
  earlier : List String

namespace NativeClass

mutual

/-- Comes to a class and then to all that is nested in it. -/
def walk (enclosing earlier : List String) : NativeClass → List Visit
  | ⟨name, constructors, functions, classes, doc, location⟩ =>
    ⟨⟨name, constructors, functions, classes, doc, location⟩, enclosing, earlier⟩ ::
      walkAll (enclosing ++ [name]) [] classes

/-- Comes to the classes of one scope in order; `earlier` are the names of those before them. -/
def walkAll (enclosing earlier : List String) : List NativeClass → List Visit
  | [] => []
  | c :: rest => c.walk enclosing earlier ++ walkAll enclosing (c.name :: earlier) rest

end

theorem walk_eq (enclosing earlier : List String) (c : NativeClass) :
    c.walk enclosing earlier =
      ⟨c, enclosing, earlier⟩ :: walkAll (enclosing ++ [c.name]) [] c.classes := by
  cases c
  rfl

end NativeClass

/-- How messages call the scope inside a chain of classes. -/
def scopeLabel (enclosing : List String) : String := enclosing.foldl innerScope rootScope

theorem scopeLabel_concat (enclosing : List String) (name : String) :
    scopeLabel (enclosing ++ [name]) = innerScope (scopeLabel enclosing) name :=
  List.foldl_concat innerScope rootScope name enclosing

inductive Check where
  | className (visit : Visit)
  | siblingName (visit : Visit)
  | functionName (visit : Visit) (function : MemberFunction)
  | functionTypes (visit : Visit) (function : MemberFunction)

namespace Visit

def scopedClass (visit : Visit) : ScopedClass := ⟨visit.decl, visit.enclosing⟩

def owner (visit : Visit) : String := scopeLabel (visit.enclosing ++ [visit.decl.name])

/-- All that is checked at a class, in order. -/
def checks (visit : Visit) : List Check :=
  .className visit :: .siblingName visit ::
    visit.decl.members.flatMap fun function =>
      [.functionName visit function, .functionTypes visit function]

end Visit

namespace Check

def isViolated : Check → Bool
  | className visit => isAllBlank visit.decl.name
  | siblingName visit => visit.earlier.contains visit.decl.name
  | functionName _ function => isAllBlank function.name
  | functionTypes _ function =>
    (!function.isConstructor && isAllBlank function.returnType.spelling) ||
      function.params.any fun param => isAllBlank param.type.spelling

/-- What is reported if the check is violated: the scope, and the name and the location of what was
checked. A blank name is left out. -/
def fault : Check → DeclarationFault
  | className visit => .emptyClassName (scopeLabel visit.enclosing) visit.decl.location
  | siblingName visit =>
    .duplicateClass (scopeLabel visit.enclosing) visit.decl.name visit.decl.location
  | functionName visit function => .emptyFunctionName visit.owner function.location
  | functionTypes visit function => .emptyTypeName visit.owner function.name function.location

/-- The fault of the first check that is violated. -/
def verdict (checks : List Check) : Except DeclarationFault Unit :=
  match checks.find? (·.isViolated) with
  | some check => .error check.fault
  | none => .ok ()

theorem verdict_nil : verdict [] = .ok () := rfl

theorem verdict_cons (check : Check) (rest : List Check) :
    verdict (check :: rest) = if check.isViolated then .error check.fault else verdict rest := by
  unfold verdict
  rw [List.find?_cons]
  cases check.isViolated <;> rfl

theorem verdict_append (checks more : List Check) :
    verdict (checks ++ more) = verdict checks >>= fun _ => verdict more := by
  induction checks with
  | nil => rfl
  | cons check rest ih =>
    rw [List.cons_append, verdict_cons, verdict_cons, ih]
    split <;> rfl

theorem verdict_eq_error_iff {checks : List Check} {fault : DeclarationFault} :
    verdict checks = .error fault ↔
      ∃ before check after, checks = before ++ check :: after ∧
        (∀ c ∈ before, c.isViolated = false) ∧ check.isViolated = true ∧ check.fault = fault := by
  unfold verdict
  constructor
  · intro h
    split at h
    · rename_i check hfound
      obtain ⟨hviolated, before, after, hsplit, hbefore⟩ := List.find?_eq_some_iff_append.mp hfound
      refine ⟨before, check, after, hsplit, ?_, hviolated, Except.error.inj h⟩
      intro c hc
      simpa using hbefore c hc
    · cases h
  · rintro ⟨before, check, after, hsplit, hbefore, hviolated, rfl⟩
    have hfound : checks.find? (·.isViolated) = some check := by
      refine List.find?_eq_some_iff_append.mpr ⟨hviolated, before, after, hsplit, ?_⟩
      intro c hc
      simpa using hbefore c hc
    rw [hfound]

end Check

namespace Declarations

def walk (tree : Declarations) : List Visit := NativeClass.walkAll [] [] tree.classes

def checks (tree : Declarations) : List Check := tree.walk.flatMap (·.checks)

end Declarations

section

open Check

variable {visit : Visit}

private theorem verdict_function (function : MemberFunction) :
    verdict [.functionName visit function, .functionTypes visit function] =
      function.validate visit.owner := by
  rw [verdict_cons, verdict_cons, verdict_nil, MemberFunction.validate]
  rfl

private theorem validateFunctions_eq_verdict (functions : List MemberFunction) :
    validateFunctions visit.owner functions =
      verdict (functions.flatMap fun function =>
        [.functionName visit function, .functionTypes visit function]) := by
  induction functions with
  | nil => rfl
  | cons function rest ih =>
    rw [List.flatMap_cons, verdict_append, verdict_function, ← ih, validateFunctions]
    cases function.validate visit.owner <;> rfl

private theorem validate_eq_verdict_cons (c : NativeClass) (enclosing earlier : List String) :
    c.validate (scopeLabel enclosing) earlier =
      verdict (Visit.checks ⟨c, enclosing, earlier⟩) >>= fun _ =>
        validateSiblings (scopeLabel (enclosing ++ [c.name])) [] c.classes := by
  have howner : Visit.owner ⟨c, enclosing, earlier⟩ = innerScope (scopeLabel enclosing) c.name :=
    scopeLabel_concat enclosing c.name
  rw [Visit.checks, verdict_cons, verdict_cons, ← validateFunctions_eq_verdict, howner,
    scopeLabel_concat]
  obtain ⟨name, constructors, functions, classes, doc, location⟩ := c
  simp only [NativeClass.validate, isViolated, fault, NativeClass.members]
  -- Either check of the name stops validation before it comes to the functions.
  by_cases hblank : isAllBlank name
  · simp only [hblank, if_true]
    rfl
  · by_cases hearlier : name ∈ earlier
    · simp only [hblank, hearlier, List.contains_eq_mem, decide_true, if_true, if_false,
        Bool.false_eq_true]
      rfl
    · simp only [hblank, hearlier, List.contains_eq_mem, decide_false, if_false, Bool.false_eq_true]
      cases validateFunctions (innerScope (scopeLabel enclosing) name)
        (constructors ++ functions) <;> rfl

private theorem validateSiblings_eq_verdict {enclosing : List String} (classes : List NativeClass)
    (earlier : List String)
    (h : ∀ c ∈ classes, ∀ earlier, c.validate (scopeLabel enclosing) earlier =
      verdict ((c.walk enclosing earlier).flatMap (·.checks))) :
    validateSiblings (scopeLabel enclosing) earlier classes =
      verdict ((NativeClass.walkAll enclosing earlier classes).flatMap (·.checks)) := by
  induction classes generalizing earlier with
  | nil => rfl
  | cons c rest ih =>
    obtain ⟨hhead, htail⟩ := List.forall_mem_cons.mp h
    rw [validateSiblings, NativeClass.walkAll, List.flatMap_append, verdict_append, hhead,
      ih _ htail]
    cases verdict ((c.walk enclosing earlier).flatMap (·.checks)) <;> rfl

private theorem validate_eq_verdict (c : NativeClass) (enclosing earlier : List String) :
    c.validate (scopeLabel enclosing) earlier =
      verdict ((c.walk enclosing earlier).flatMap (·.checks)) := by
  induction c using NativeClass.nestedInduction generalizing enclosing earlier with
  | step c ih =>
    rw [validate_eq_verdict_cons, NativeClass.walk_eq, List.flatMap_cons, verdict_append,
      validateSiblings_eq_verdict c.classes [] fun nested hn => ih nested hn _]

end

namespace NativeClass

private theorem scopedClass_walkAll {enclosing : List String} (classes : List NativeClass)
    (earlier : List String)
    (h : ∀ c ∈ classes, ∀ earlier,
      (c.walk enclosing earlier).map (·.scopedClass) = c.inScope enclosing) :
    (walkAll enclosing earlier classes).map (·.scopedClass) = allInScope enclosing classes := by
  induction classes generalizing earlier with
  | nil => rfl
  | cons c rest ih =>
    obtain ⟨hhead, htail⟩ := List.forall_mem_cons.mp h
    rw [walkAll, allInScope, List.map_append, hhead, ih _ htail]

theorem scopedClass_walk (c : NativeClass) (enclosing earlier : List String) :
    (c.walk enclosing earlier).map (·.scopedClass) = c.inScope enclosing := by
  induction c using NativeClass.nestedInduction generalizing enclosing earlier with
  | step c ih =>
    rw [walk_eq, inScope_eq, List.map_cons,
      scopedClass_walkAll c.classes [] fun nested hn => ih nested hn _]
    rfl

end NativeClass

namespace Declarations

theorem validate_eq_verdict (tree : Declarations) : tree.validate = Check.verdict tree.checks :=
  validateSiblings_eq_verdict tree.classes [] fun c _ => NativeBindings.validate_eq_verdict c []

theorem scopedClass_walk (tree : Declarations) :
    tree.walk.map (·.scopedClass) = tree.scopedClasses :=
  NativeClass.scopedClass_walkAll tree.classes [] fun c _ => c.scopedClass_walk []

/-- A tree is valid exactly if all its scopes are sound. Otherwise the fault is that of the first
check that is violated on a walk through its classes in pre-order. -/
theorem validate_reports_first_violation (tree : Declarations) :
    (tree.validate = .ok () ↔ tree.IsSound) ∧
      tree.walk.map (·.scopedClass) = tree.scopedClasses ∧
      ∀ fault, tree.validate = .error fault ↔
        ∃ before check after, tree.checks = before ++ check :: after ∧
          (∀ c ∈ before, c.isViolated = false) ∧ check.isViolated = true ∧
            check.fault = fault := by
  refine ⟨validate_eq_ok_iff, tree.scopedClass_walk, fun fault => ?_⟩
  rw [validate_eq_verdict, Check.verdict_eq_error_iff]

/-- A nested class is checked before the next sibling. -/
example : Declarations.validate
    ⟨none, [{ NativeClass.ofName "A" with classes := [.ofName ""] }, .ofName "A"]⟩ =
      .error (.emptyClassName "A" none) := by
  rfl

end Declarations

end NativeBindings
