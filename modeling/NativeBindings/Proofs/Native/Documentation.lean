import NativeBindings.Proofs.Native.FirstFault

/-!
# Declarations without documentation

Documentation and locations are for the reader of a header. Without them, a tree has the same
classes in the same scopes, and it is valid exactly if it was before.
-/

namespace NativeBindings

def MemberFunction.undocumented (function : MemberFunction) : MemberFunction :=
  { function with doc := none, location := none }

namespace NativeClass

mutual

/-- The class without documentation and locations, at every depth. -/
def undocumented : NativeClass → NativeClass
  | ⟨name, constructors, functions, classes, _, _⟩ =>
    ⟨name, constructors.map (·.undocumented), functions.map (·.undocumented),
      undocumentedAll classes, none, none⟩

def undocumentedAll : List NativeClass → List NativeClass
  | [] => []
  | c :: rest => c.undocumented :: undocumentedAll rest

end

theorem undocumentedAll_eq_map (classes : List NativeClass) :
    undocumentedAll classes = classes.map undocumented := by
  induction classes with
  | nil => rfl
  | cons c rest ih => rw [undocumentedAll, ih, List.map_cons]

theorem undocumented_eq (c : NativeClass) :
    c.undocumented = ⟨c.name, c.constructors.map (·.undocumented),
      c.functions.map (·.undocumented), c.classes.map (·.undocumented), none, none⟩ := by
  cases c
  rw [undocumented, undocumentedAll_eq_map]

@[simp] theorem name_undocumented (c : NativeClass) : c.undocumented.name = c.name := by
  rw [undocumented_eq]

@[simp] theorem members_undocumented (c : NativeClass) :
    c.undocumented.members = c.members.map (·.undocumented) := by
  rw [undocumented_eq, members, members, List.map_append]

@[simp] theorem classes_undocumented (c : NativeClass) :
    c.undocumented.classes = c.classes.map (·.undocumented) := by
  rw [undocumented_eq]

end NativeClass

def ScopedClass.undocumented (c : ScopedClass) : ScopedClass := ⟨c.decl.undocumented, c.enclosing⟩

namespace NativeClass

private theorem allInScope_undocumented {enclosing : List String} {classes : List NativeClass}
    (h : ∀ c ∈ classes,
      c.undocumented.inScope enclosing = (c.inScope enclosing).map (·.undocumented)) :
    allInScope enclosing (classes.map (·.undocumented)) =
      (allInScope enclosing classes).map (·.undocumented) := by
  rw [allInScope_eq_flatMap, allInScope_eq_flatMap, List.map_flatMap, List.flatMap_map]
  exact List.flatMap_congr h

theorem inScope_undocumented (c : NativeClass) (enclosing : List String) :
    c.undocumented.inScope enclosing = (c.inScope enclosing).map (·.undocumented) := by
  induction c using NativeClass.nestedInduction generalizing enclosing with
  | step c ih =>
    rw [inScope_eq, inScope_eq, List.map_cons, name_undocumented, classes_undocumented,
      allInScope_undocumented fun nested hn => ih nested hn _]
    rfl

end NativeClass

theorem MemberFunction.isSound_undocumented {function : MemberFunction} :
    function.undocumented.IsSound ↔ function.IsSound :=
  ⟨fun h => ⟨h.name, h.params, h.returnType⟩, fun h => ⟨h.name, h.params, h.returnType⟩⟩

theorem soundScope_undocumented {classes : List NativeClass} :
    SoundScope (classes.map (·.undocumented)) ↔ SoundScope classes := by
  have hnames : (classes.map (·.undocumented)).map (·.name) = classes.map (·.name) := by
    rw [List.map_map]
    exact List.map_congr_left fun c _ => c.name_undocumented
  constructor
  · rintro ⟨hblank, hdistinct, hfunctions⟩
    simp only [List.forall_mem_map, NativeClass.name_undocumented,
      NativeClass.members_undocumented, MemberFunction.isSound_undocumented] at hblank hfunctions
    exact ⟨hblank, hnames ▸ hdistinct, hfunctions⟩
  · rintro ⟨hblank, hdistinct, hfunctions⟩
    refine ⟨?_, hnames.symm ▸ hdistinct, ?_⟩
    · simpa only [List.forall_mem_map, NativeClass.name_undocumented] using hblank
    · simpa only [List.forall_mem_map, NativeClass.members_undocumented,
        MemberFunction.isSound_undocumented] using hfunctions

namespace Declarations

def undocumented (tree : Declarations) : Declarations :=
  { tree with classes := NativeClass.undocumentedAll tree.classes }

theorem scopedClasses_undocumented (tree : Declarations) :
    tree.undocumented.scopedClasses = tree.scopedClasses.map (·.undocumented) := by
  rw [scopedClasses, undocumented, NativeClass.undocumentedAll_eq_map,
    NativeClass.allInScope_undocumented fun c _ => c.inScope_undocumented []]
  rfl

theorem validate_undocumented {tree : Declarations} :
    tree.undocumented.validate = .ok () ↔ tree.validate = .ok () := by
  have hscopes : tree.undocumented.scopes = tree.scopes.map (List.map (·.undocumented)) := by
    rw [scopes, scopes, scopedClasses_undocumented, List.map_cons, List.map_map, List.map_map,
      undocumented, NativeClass.undocumentedAll_eq_map]
    congr 1
    exact List.map_congr_left fun c _ => c.decl.classes_undocumented
  rw [validate_eq_ok_iff, validate_eq_ok_iff, IsSound, IsSound, hscopes, List.forall_mem_map]
  simp only [soundScope_undocumented]

end Declarations

end NativeBindings
