import NativeBindings.Native.Declaration
import NativeBindings.Proofs.Scope.Path
import Mathlib.Data.List.Nodup

/-!
# Pre-order of classes

What passes validation are functions and classes that are in order by themselves, and siblings with
different names. Where a class stands does not matter to whether it passes.

In the list of all classes, a class comes after the classes around it. In a tree that passes
validation no two classes have the same path, and with unqualified names no two have the same
qualified name.
-/

namespace NativeBindings

open Text

theorem validateFunctions_eq_ok_iff {owner : String} {functions : List MemberFunction} :
    validateFunctions owner functions = .ok () ↔
      ∀ function ∈ functions, function.validate owner = .ok () := by
  induction functions with
  | nil => simp [validateFunctions]
  | cons function rest ih =>
    rw [validateFunctions, List.forall_mem_cons, ← ih]
    cases function.validate owner with
    | error fault => simp
    | ok _ => simp

theorem NativeClass.validate_eq_ok_iff {scope : String} {earlier : List String} {c : NativeClass} :
    c.validate scope earlier = .ok () ↔
      isAllBlank c.name = false ∧
        (∀ function ∈ c.members, function.validate (innerScope scope c.name) = .ok ()) ∧
          validateSiblings (innerScope scope c.name) [] c.classes = .ok () ∧ c.name ∉ earlier := by
  obtain ⟨name, constructors, functions, classes, doc, location⟩ := c
  rw [NativeClass.validate, NativeClass.members, ← validateFunctions_eq_ok_iff]
  by_cases hblank : isAllBlank name
  · simp [hblank]
  · by_cases he : name ∈ earlier
    · simp [hblank, he]
    · cases hf : validateFunctions (innerScope scope name) (constructors ++ functions) with
      | error fault => simp [hblank, he]
      | ok _ => simp [hblank, he]

theorem validateSiblings_cons_eq_ok_iff {scope : String} {earlier : List String} {c : NativeClass}
    {rest : List NativeClass} :
    validateSiblings scope earlier (c :: rest) = .ok () ↔
      c.validate scope earlier = .ok () ∧
        validateSiblings scope (c.name :: earlier) rest = .ok () := by
  rw [validateSiblings]
  cases c.validate scope earlier with
  | error fault => simp
  | ok _ => simp

/-- Besides the classes themselves, only their names matter. -/
theorem validateSiblings_eq_ok_iff {scope : String} {earlier : List String}
    {classes : List NativeClass} :
    validateSiblings scope earlier classes = .ok () ↔
      (∀ c ∈ classes, c.validate scope [] = .ok () ∧ c.name ∉ earlier) ∧
        (classes.map (·.name)).Nodup := by
  induction classes generalizing earlier with
  | nil => simp [validateSiblings]
  | cons c rest ih =>
    have hhead : c.validate scope earlier = .ok () ↔
        c.validate scope [] = .ok () ∧ c.name ∉ earlier := by
      simp only [NativeClass.validate_eq_ok_iff, List.not_mem_nil, not_false_eq_true, and_true,
        and_assoc]
    have hnames : (∀ d ∈ rest, d.validate scope [] = .ok () ∧ d.name ∉ c.name :: earlier) ↔
        (∀ d ∈ rest, d.validate scope [] = .ok () ∧ d.name ∉ earlier) ∧
          c.name ∉ rest.map (·.name) := by
      simp only [List.mem_cons, not_or, List.mem_map, not_exists, not_and]
      constructor
      · exact fun h => ⟨fun d hd => ⟨(h d hd).1, (h d hd).2.2⟩, fun d hd => (h d hd).2.1⟩
      · exact fun h d hd => ⟨(h.1 d hd).1, h.2 d hd, (h.1 d hd).2⟩
    rw [validateSiblings_cons_eq_ok_iff, ih, hhead, hnames, List.forall_mem_cons, List.map_cons,
      List.nodup_cons]
    constructor
    · rintro ⟨hc, ⟨hrest, hname⟩, hnodup⟩
      exact ⟨⟨hc, hrest⟩, hname, hnodup⟩
    · rintro ⟨⟨hc, hrest⟩, hname, hnodup⟩
      exact ⟨hc, ⟨hrest, hname⟩, hnodup⟩

/-- Induction over a class and everything nested in it. -/
theorem NativeClass.nestedInduction {motive : NativeClass → Prop}
    (step : ∀ c : NativeClass, (∀ nested ∈ c.classes, motive nested) → motive c) (c : NativeClass) :
    motive c := by
  refine @NativeClass.rec motive (fun classes => ∀ nested ∈ classes, motive nested) ?_ ?_ ?_ c
  · intro name constructors functions classes doc location ih
    exact step _ ih
  · intro nested hn
    exact absurd hn List.not_mem_nil
  · intro head tail hh ht
    exact List.forall_mem_cons.mpr ⟨hh, ht⟩

namespace NativeClass

theorem inScope_eq (enclosing : List String) (c : NativeClass) :
    c.inScope enclosing = ⟨c, enclosing⟩ :: allInScope (enclosing ++ [c.name]) c.classes := by
  cases c
  rfl

theorem allInScope_eq_flatMap (enclosing : List String) (classes : List NativeClass) :
    allInScope enclosing classes = classes.flatMap (·.inScope enclosing) := by
  induction classes with
  | nil => rfl
  | cons c rest ih => rw [allInScope, ih, List.flatMap_cons]

theorem prefix_path_of_mem_inScope (c : NativeClass) {enclosing : List String} {x : ScopedClass}
    (hx : x ∈ c.inScope enclosing) : enclosing ++ [c.name] <+: x.path := by
  induction c using NativeClass.nestedInduction generalizing enclosing with
  | step c ih =>
    rw [inScope_eq, allInScope_eq_flatMap] at hx
    rcases List.mem_cons.mp hx with rfl | hx
    · exact List.prefix_rfl
    · obtain ⟨nested, hn, hx⟩ := List.mem_flatMap.mp hx
      exact (List.prefix_append _ _).trans (ih nested hn hx)

theorem exists_prefix_path_of_mem_allInScope {enclosing : List String} {classes : List NativeClass}
    {x : ScopedClass} (hx : x ∈ allInScope enclosing classes) :
    ∃ c ∈ classes, enclosing ++ [c.name] <+: x.path := by
  rw [allInScope_eq_flatMap] at hx
  obtain ⟨c, hc, hx⟩ := List.mem_flatMap.mp hx
  exact ⟨c, hc, c.prefix_path_of_mem_inScope hx⟩

end NativeClass

/-- Each class comes after the classes around it; `seen` are the paths of classes before the
first. -/
def OuterFirst (seen : List (List String)) : List ScopedClass → Prop
  | [] => True
  | c :: rest => (∀ p, p ≠ [] → p <+: c.enclosing → p ∈ seen) ∧ OuterFirst (c.path :: seen) rest

namespace OuterFirst

theorem mono {seen seen' : List (List String)} (hs : seen ⊆ seen') {classes : List ScopedClass}
    (h : OuterFirst seen classes) : OuterFirst seen' classes := by
  induction classes generalizing seen seen' with
  | nil => trivial
  | cons c rest ih =>
    refine ⟨fun p hp hc => hs (h.1 p hp hc), ih ?_ h.2⟩
    exact List.cons_subset_cons _ hs

theorem append {seen : List (List String)} {classes more : List ScopedClass}
    (h : OuterFirst seen classes) (hm : OuterFirst seen more) :
    OuterFirst seen (classes ++ more) := by
  induction classes generalizing seen with
  | nil => exact hm
  | cons c rest ih => exact ⟨h.1, ih h.2 (hm.mono (List.subset_cons_self _ _))⟩

private theorem prefix_concat {seen : List (List String)} {enclosing : List String} {name : String}
    (h : ∀ p, p ≠ [] → p <+: enclosing → p ∈ seen) (p : List String) (hp : p ≠ [])
    (hpre : p <+: enclosing ++ [name]) : p ∈ (enclosing ++ [name]) :: seen := by
  rcases List.prefix_concat_iff.mp hpre with rfl | hpre
  · exact List.mem_cons_self
  · exact List.mem_cons_of_mem _ (h p hp hpre)

theorem allInScope_of_inScope {seen : List (List String)} {enclosing : List String}
    {classes : List NativeClass}
    (h : ∀ c ∈ classes, OuterFirst seen (c.inScope enclosing)) :
    OuterFirst seen (NativeClass.allInScope enclosing classes) := by
  induction classes with
  | nil => trivial
  | cons c rest ih =>
    obtain ⟨hc, hrest⟩ := List.forall_mem_cons.mp h
    exact hc.append (ih hrest)

theorem inScope (c : NativeClass) {seen : List (List String)} {enclosing : List String}
    (h : ∀ p, p ≠ [] → p <+: enclosing → p ∈ seen) : OuterFirst seen (c.inScope enclosing) := by
  induction c using NativeClass.nestedInduction generalizing enclosing seen with
  | step c ih =>
    rw [NativeClass.inScope_eq]
    refine ⟨h, allInScope_of_inScope fun nested hn => ih nested hn ?_⟩
    exact prefix_concat h

theorem scopedClasses (tree : Declarations) : OuterFirst [] tree.scopedClasses := by
  apply allInScope_of_inScope
  intro c _
  apply inScope
  intro p hp hpre
  exact absurd (List.prefix_nil.mp hpre) hp

theorem exists_mem {seen : List (List String)} {classes : List ScopedClass}
    (h : OuterFirst seen classes) {c : ScopedClass} (hc : c ∈ classes) {p : List String}
    (hp : p ≠ []) (hpre : p <+: c.enclosing) : p ∈ seen ∨ ∃ d ∈ classes, d.path = p := by
  induction classes generalizing seen with
  | nil => exact absurd hc List.not_mem_nil
  | cons head rest ih =>
    rcases List.mem_cons.mp hc with rfl | hc
    · exact Or.inl (h.1 p hp hpre)
    · rcases ih h.2 hc with hseen | ⟨d, hd, hdp⟩
      · rcases List.mem_cons.mp hseen with rfl | hseen
        · exact Or.inr ⟨head, List.mem_cons_self, rfl⟩
        · exact Or.inl hseen
      · exact Or.inr ⟨d, List.mem_cons_of_mem _ hd, hdp⟩

end OuterFirst

/-- No class name of the tree holds a colon. -/
def Declarations.HasUnqualifiedNames (tree : Declarations) : Prop :=
  ∀ c ∈ tree.scopedClasses, IsUnqualified c.name

instance (tree : Declarations) : Decidable tree.HasUnqualifiedNames :=
  inferInstanceAs (Decidable (∀ c ∈ tree.scopedClasses, IsUnqualified c.name))

namespace Declarations

theorem exists_of_mem_path {tree : Declarations} {c : ScopedClass} (hc : c ∈ tree.scopedClasses)
    {name : String} (hn : name ∈ c.path) : ∃ d ∈ tree.scopedClasses, d.name = name := by
  rcases List.mem_append.mp hn with hn | hn
  · obtain ⟨front, back, hsplit⟩ := List.append_of_mem hn
    have hpre : front ++ [name] <+: c.enclosing := by
      exact ⟨back, by rw [hsplit, List.append_assoc]; rfl⟩
    rcases (OuterFirst.scopedClasses tree).exists_mem hc (by simp) hpre with hs | ⟨d, hd, hp⟩
    · exact absurd hs List.not_mem_nil
    · exact ⟨d, hd, (List.concat_inj.mp (by simpa [ScopedClass.path] using hp)).2⟩
  · exact ⟨c, hc, (List.mem_singleton.mp hn).symm⟩

theorem isUnqualified_of_mem_path {tree : Declarations} (hu : tree.HasUnqualifiedNames)
    {c : ScopedClass} (hc : c ∈ tree.scopedClasses) {name : String} (hn : name ∈ c.path) :
    IsUnqualified name := by
  obtain ⟨d, hd, rfl⟩ := exists_of_mem_path hc hn
  exact hu d hd

end Declarations

private theorem eq_of_concat_prefix {enclosing path : List String} {name name' : String}
    (h : enclosing ++ [name] <+: path) (h' : enclosing ++ [name'] <+: path) : name = name' := by
  have hp := List.prefix_of_prefix_length_le h h' (by simp)
  have he := hp.eq_of_length (by simp)
  simpa using he

theorem paths_allInScope_nodup {scope : String} {earlier enclosing : List String}
    {classes : List NativeClass} (h : validateSiblings scope earlier classes = .ok ())
    (hc : ∀ c ∈ classes, ∀ scope earlier enclosing, c.validate scope earlier = .ok () →
      ((c.inScope enclosing).map (·.path)).Nodup) :
    ((NativeClass.allInScope enclosing classes).map (·.path)).Nodup := by
  induction classes generalizing earlier with
  | nil => simp [NativeClass.allInScope]
  | cons c rest ih =>
    obtain ⟨hhead, htail⟩ := List.forall_mem_cons.mp hc
    obtain ⟨hv, hrest⟩ := validateSiblings_cons_eq_ok_iff.mp h
    rw [NativeClass.allInScope, List.map_append, List.nodup_append]
    refine ⟨hhead _ _ _ hv, ih hrest htail, ?_⟩
    intro path hx path' hy heq
    obtain ⟨x, hxm, rfl⟩ := List.mem_map.mp hx
    obtain ⟨y, hym, rfl⟩ := List.mem_map.mp hy
    obtain ⟨d, hd, hpre⟩ := NativeClass.exists_prefix_path_of_mem_allInScope hym
    rw [← heq] at hpre
    have hname : c.name = d.name := eq_of_concat_prefix (c.prefix_path_of_mem_inScope hxm) hpre
    exact ((validateSiblings_eq_ok_iff.mp hrest).1 d hd).2 (hname ▸ List.mem_cons_self)

theorem paths_inScope_nodup (c : NativeClass) (scope : String) (earlier enclosing : List String)
    (h : c.validate scope earlier = .ok ()) : ((c.inScope enclosing).map (·.path)).Nodup := by
  induction c using NativeClass.nestedInduction generalizing scope earlier enclosing with
  | step c ih =>
    obtain ⟨-, -, hclasses, -⟩ := NativeClass.validate_eq_ok_iff.mp h
    rw [NativeClass.inScope_eq, List.map_cons, List.nodup_cons]
    refine ⟨fun hm => ?_, paths_allInScope_nodup hclasses ih⟩
    obtain ⟨x, hx, hp⟩ := List.mem_map.mp hm
    obtain ⟨d, -, hpre⟩ := NativeClass.exists_prefix_path_of_mem_allInScope hx
    -- A nested class has a longer path than the class around it.
    have hlen := hpre.length_le
    rw [hp] at hlen
    simp [ScopedClass.path, ScopedClass.name] at hlen

namespace Declarations

/-- In a valid tree no two classes have the same path. -/
theorem paths_nodup {tree : Declarations} (h : tree.validate = .ok ()) :
    (tree.scopedClasses.map (·.path)).Nodup :=
  paths_allInScope_nodup h fun c _ scope earlier enclosing =>
    paths_inScope_nodup c scope earlier enclosing

theorem qualifiedNames_nodup {tree : Declarations} (h : tree.validate = .ok ())
    (hu : tree.HasUnqualifiedNames) : (tree.scopedClasses.map (·.qualifiedName)).Nodup := by
  have hpaths := paths_nodup h
  rw [List.Nodup, List.pairwise_map] at hpaths ⊢
  apply hpaths.imp_of_mem
  intro c d hc hd hne hq
  have hcp : c.path ≠ [] := by simp [ScopedClass.path]
  have hdp : d.path ≠ [] := by simp [ScopedClass.path]
  exact hne (scopePath_injective hcp hdp (fun _ hn => isUnqualified_of_mem_path hu hc hn)
    (fun _ hn => isUnqualified_of_mem_path hu hd hn) hq)

end Declarations

end NativeBindings
