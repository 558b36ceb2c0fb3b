import NativeBindings.Proofs.Scope.PreOrder

/-!
# Edits of a tree

An edit changes one class of a tree, or removes it with everything nested in it. In a valid tree the
list of all classes changes in one place; besides that, the classes around it have other classes
nested in them.
-/

namespace NativeBindings

/-- Edits the classes of a name inside a chain of classes. A class that the edit gives nothing for
is removed. -/
def NativeClass.editIn (edit : NativeClass → Option NativeClass) (name : String) :
    List String → List NativeClass → List NativeClass
  | [], classes => classes.filterMap fun c => if c.name = name then edit c else some c
  | outer :: inner, classes => classes.map fun c =>
    if c.name = outer then { c with classes := editIn edit name inner c.classes } else c

def Declarations.edit (tree : Declarations) (c : ScopedClass)
    (edit : NativeClass → Option NativeClass) : Declarations :=
  { tree with classes := NativeClass.editIn edit c.name c.enclosing tree.classes }

def ScopedClass.alone (c : ScopedClass) : ScopedClass :=
  { c with decl := { c.decl with classes := [] } }

namespace NativeClass

theorem allInScope_append (enclosing : List String) (classes more : List NativeClass) :
    allInScope enclosing (classes ++ more) =
      allInScope enclosing classes ++ allInScope enclosing more := by
  simp only [allInScope_eq_flatMap, List.flatMap_append]

theorem prefix_enclosing_of_mem_allInScope {enclosing : List String} {classes : List NativeClass}
    {c : ScopedClass} (hc : c ∈ allInScope enclosing classes) : enclosing <+: c.enclosing := by
  obtain ⟨d, -, hpath⟩ := exists_prefix_path_of_mem_allInScope hc
  rcases List.prefix_concat_iff.mp hpath with heq | hpre
  · rw [(List.append_inj' heq rfl).1]
  · exact (List.prefix_append _ _).trans hpre

theorem exists_of_mem_allInScope {enclosing : List String} {classes : List NativeClass}
    {c : ScopedClass} (hc : c ∈ allInScope enclosing classes) :
    ∃ d ∈ classes, c = ⟨d, enclosing⟩ ∨
      c ∈ allInScope (enclosing ++ [d.name]) d.classes := by
  rw [allInScope_eq_flatMap] at hc
  obtain ⟨d, hd, hc⟩ := List.mem_flatMap.mp hc
  rw [inScope_eq, List.mem_cons] at hc
  exact ⟨d, hd, hc⟩

section

variable {edit : NativeClass → Option NativeClass}

theorem editIn_nil_split {name : String} {front back : List NativeClass} {c : NativeClass}
    (hfront : ∀ d ∈ front, d.name ≠ name) (hc : c.name = name)
    (hback : ∀ d ∈ back, d.name ≠ name) :
    editIn edit name [] (front ++ c :: back) = front ++ ((edit c).toList ++ back) := by
  have hstay : ∀ classes : List NativeClass, (∀ d ∈ classes, d.name ≠ name) →
      classes.filterMap (fun d => if d.name = name then edit d else some d) = classes := by
    intro classes h
    rw [List.filterMap_congr fun d hd => if_neg (h d hd), List.filterMap_some]
  rw [editIn, List.filterMap_append, hstay front hfront, List.filterMap_cons, if_pos hc,
    hstay back hback]
  cases edit c <;> rfl

theorem editIn_cons_split {name outer : String} {inner : List String}
    {front back : List NativeClass} {c : NativeClass} (hfront : ∀ d ∈ front, d.name ≠ outer)
    (hc : c.name = outer) (hback : ∀ d ∈ back, d.name ≠ outer) :
    editIn edit name (outer :: inner) (front ++ c :: back) =
      front ++ { c with classes := editIn edit name inner c.classes } :: back := by
  have hstay : ∀ classes : List NativeClass, (∀ d ∈ classes, d.name ≠ outer) →
      classes.map (fun d => if d.name = outer then
        { d with classes := editIn edit name inner d.classes } else d) = classes := by
    intro classes h
    rw [List.map_congr_left fun d hd => if_neg (h d hd), List.map_id']
  rw [editIn, List.map_append, hstay front hfront, List.map_cons, if_pos hc, hstay back hback]

end

theorem exists_split_of_mem {scope : String} {classes : List NativeClass}
    (h : validateSiblings scope [] classes = .ok ()) {c : NativeClass} (hc : c ∈ classes) :
    ∃ front back, classes = front ++ c :: back ∧ (∀ d ∈ front, d.name ≠ c.name) ∧
      ∀ d ∈ back, d.name ≠ c.name := by
  obtain ⟨front, back, rfl⟩ := List.append_of_mem hc
  have hnames := (validateSiblings_eq_ok_iff.mp h).2
  rw [List.map_append, List.map_cons, List.nodup_middle, List.nodup_cons, List.mem_append,
    not_or] at hnames
  obtain ⟨⟨hfront, hback⟩, -⟩ := hnames
  refine ⟨front, back, rfl, ?_, ?_⟩
  · exact fun d hd heq => hfront (heq ▸ List.mem_map_of_mem hd)
  · exact fun d hd heq => hback (heq ▸ List.mem_map_of_mem hd)

/-- What an edit does to the list of all classes, seen without what is nested in them. -/
theorem exists_allInScope_editIn {c : ScopedClass} {inner : List String} :
    ∀ {outer : List String} {scope : String} {classes : List NativeClass},
      c.enclosing = outer ++ inner → validateSiblings scope [] classes = .ok () →
        c ∈ allInScope outer classes →
          ∃ before after,
            allInScope outer classes = before ++ (c.decl.inScope c.enclosing ++ after) ∧
              ∀ edit, (allInScope outer (editIn edit c.name inner classes)).map (·.alone) =
                before.map (·.alone) ++
                  ((allInScope c.enclosing (edit c.decl).toList).map (·.alone) ++
                    after.map (·.alone)) := by
  -- Along the chain around the class, there is one sibling to go into.
  induction inner with
  | nil =>
    intro outer scope classes henclosing hvalid hc
    rw [List.append_nil] at henclosing
    obtain ⟨d, hd, rfl | hnested⟩ := exists_of_mem_allInScope hc
    · obtain ⟨front, back, rfl, hfront, hback⟩ := exists_split_of_mem hvalid hd
      refine ⟨allInScope outer front, allInScope outer back, ?_, ?_⟩
      · rw [allInScope_append, allInScope]
      · intro edit
        have hedit : editIn edit (ScopedClass.mk d outer).name [] (front ++ d :: back) =
            front ++ ((edit d).toList ++ back) := editIn_nil_split hfront rfl hback
        rw [hedit, allInScope_append, allInScope_append, List.map_append, List.map_append]
    · have hlen := (prefix_enclosing_of_mem_allInScope hnested).length_le
      rw [henclosing, List.length_append, List.length_singleton] at hlen
      omega
  | cons name inner ih =>
    intro outer scope classes henclosing hvalid hc
    obtain ⟨d, hd, rfl | hnested⟩ := exists_of_mem_allInScope hc
    · exact absurd henclosing (by simp)
    · have hname : d.name = name := by
        have hpre := prefix_enclosing_of_mem_allInScope hnested
        rw [henclosing, List.prefix_append_right_inj] at hpre
        exact (List.cons_prefix_cons.mp hpre).1
      subst hname
      obtain ⟨front, back, rfl, hfront, hback⟩ := exists_split_of_mem hvalid hd
      obtain ⟨-, -, hclasses, -⟩ :=
        NativeClass.validate_eq_ok_iff.mp ((validateSiblings_eq_ok_iff.mp hvalid).1 d hd).1
      obtain ⟨before, after, hsplit, hedit⟩ := ih (by simp [henclosing]) hclasses hnested
      refine ⟨allInScope outer front ++ ⟨d, outer⟩ :: before, after ++ allInScope outer back,
        ?_, ?_⟩
      · rw [allInScope_append, allInScope, inScope_eq, hsplit]
        simp only [List.append_assoc, List.cons_append]
      · intro edit
        rw [editIn_cons_split hfront rfl hback, allInScope_append, allInScope, inScope_eq,
          List.map_append, List.map_append, List.map_cons, hedit edit]
        simp only [List.map_append, List.map_cons, List.append_assoc, List.cons_append]
        rfl

/-- The edit keeps names, and keeps valid classes valid. -/
structure KeepsValid (edit : NativeClass → Option NativeClass) : Prop where
  name : ∀ c d, edit c = some d → d.name = c.name
  valid : ∀ c d scope, edit c = some d → c.validate scope [] = .ok () →
    d.validate scope [] = .ok ()

theorem KeepsValid.of_members {f : NativeClass → NativeClass} (hname : ∀ c, (f c).name = c.name)
    (hclasses : ∀ c, (f c).classes = c.classes)
    (hmembers : ∀ c, (f c).members.Sublist c.members) : KeepsValid fun c => some (f c) where
  name := by
    rintro c d ⟨⟩
    exact hname c
  valid := by
    rintro c d scope ⟨⟩ hc
    obtain ⟨hblank, hfunctions, hnested, -⟩ := validate_eq_ok_iff.mp hc
    refine validate_eq_ok_iff.mpr ⟨?_, ?_, ?_, List.not_mem_nil⟩
    · rwa [hname]
    · rw [hname]
      exact fun function hf => hfunctions function ((hmembers c).subset hf)
    · rwa [hname, hclasses]

theorem KeepsValid.none : KeepsValid fun _ => none where
  name := by
    rintro c d ⟨⟩
  valid := by
    rintro c d scope ⟨⟩

private theorem names_filterMap_sublist {f : NativeClass → Option NativeClass}
    (h : ∀ c d, f c = some d → d.name = c.name) (classes : List NativeClass) :
    ((classes.filterMap f).map (·.name)).Sublist (classes.map (·.name)) := by
  induction classes with
  | nil => exact List.Sublist.refl []
  | cons c rest ih =>
    cases hc : f c with
    | none =>
      rw [List.filterMap_cons_none hc]
      exact ih.cons c.name
    | some d =>
      rw [List.filterMap_cons_some hc, List.map_cons, List.map_cons, h c d hc]
      exact ih.cons_cons c.name

theorem validateSiblings_editIn {edit : NativeClass → Option NativeClass} (h : KeepsValid edit)
    {name : String} {enclosing : List String} {scope : String} {classes : List NativeClass}
    (hvalid : validateSiblings scope [] classes = .ok ()) :
    validateSiblings scope [] (editIn edit name enclosing classes) = .ok () := by
  induction enclosing generalizing scope classes with
  | nil =>
    obtain ⟨hclasses, hnames⟩ := validateSiblings_eq_ok_iff.mp hvalid
    refine validateSiblings_eq_ok_iff.mpr ⟨?_, ?_⟩
    · intro d hd
      obtain ⟨c, hc, heq⟩ := List.mem_filterMap.mp hd
      by_cases hn : c.name = name
      · rw [if_pos hn] at heq
        exact ⟨h.valid c d scope heq (hclasses c hc).1, List.not_mem_nil⟩
      · rw [if_neg hn] at heq
        cases heq
        exact hclasses d hc
    · apply (names_filterMap_sublist _ classes).nodup hnames
      intro c d heq
      split at heq
      · exact h.name c d heq
      · cases heq
        rfl
  | cons outer inner ih =>
    obtain ⟨hclasses, hnames⟩ := validateSiblings_eq_ok_iff.mp hvalid
    refine validateSiblings_eq_ok_iff.mpr ⟨?_, ?_⟩
    · intro d hd
      obtain ⟨c, hc, rfl⟩ := List.mem_map.mp hd
      split
      · obtain ⟨hblank, hmembers, hnested, hname⟩ :=
          NativeClass.validate_eq_ok_iff.mp (hclasses c hc).1
        exact ⟨NativeClass.validate_eq_ok_iff.mpr ⟨hblank, hmembers, ih hnested, hname⟩,
          List.not_mem_nil⟩
      · exact hclasses c hc
    · have hsame : (editIn edit name (outer :: inner) classes).map (·.name) =
          classes.map (·.name) := by
        rw [editIn, List.map_map]
        apply List.map_congr_left
        intro c _
        rw [Function.comp_apply]
        split <;> rfl
      rwa [hsame]

end NativeClass

namespace Declarations

variable {tree : Declarations} {c : ScopedClass} {edit : NativeClass → Option NativeClass}

theorem validate_edit (h : NativeClass.KeepsValid edit) (hvalid : tree.validate = .ok ()) :
    (tree.edit c edit).validate = .ok () :=
  NativeClass.validateSiblings_editIn h hvalid

/-- In a valid tree, an edit puts other classes in place of a class and those nested in it. -/
theorem exists_scopedClasses_edit (hvalid : tree.validate = .ok ()) (hc : c ∈ tree.scopedClasses) :
    ∃ before after, tree.scopedClasses = before ++ (c.decl.inScope c.enclosing ++ after) ∧
      ∀ edit, (tree.edit c edit).scopedClasses.map (·.alone) = before.map (·.alone) ++
        ((NativeClass.allInScope c.enclosing (edit c.decl).toList).map (·.alone) ++
          after.map (·.alone)) :=
  NativeClass.exists_allInScope_editIn (List.nil_append _).symm hvalid hc

theorem exists_scopedClasses_replace (hvalid : tree.validate = .ok ())
    (hc : c ∈ tree.scopedClasses) :
    ∃ before after, tree.scopedClasses.map (·.alone) = before ++ c.alone :: after ∧
      ∀ edit d, edit c.decl = some d → d.name = c.decl.name → d.classes = c.decl.classes →
        (tree.edit c edit).scopedClasses.map (·.alone) =
          before ++ (ScopedClass.mk d c.enclosing).alone :: after := by
  obtain ⟨before, after, hsplit, hedit⟩ := exists_scopedClasses_edit hvalid hc
  refine ⟨before.map (·.alone),
    (NativeClass.allInScope (c.enclosing ++ [c.decl.name]) c.decl.classes ++ after).map (·.alone),
    ?_, ?_⟩
  · rw [hsplit, NativeClass.inScope_eq, List.map_append, List.cons_append, List.map_cons]
  · intro edit d hd hname hclasses
    rw [hedit, hd, Option.toList_some, NativeClass.allInScope, NativeClass.allInScope,
      List.append_nil, NativeClass.inScope_eq, hname, hclasses, List.map_cons, List.cons_append,
      List.map_append]

theorem exists_scopedClasses_remove (hvalid : tree.validate = .ok ())
    (hc : c ∈ tree.scopedClasses) :
    ∃ before after, tree.scopedClasses.map (·.alone) =
        before ++ ((c.decl.inScope c.enclosing).map (·.alone) ++ after) ∧
      (tree.edit c fun _ => none).scopedClasses.map (·.alone) = before ++ after := by
  obtain ⟨before, after, hsplit, hedit⟩ := exists_scopedClasses_edit hvalid hc
  refine ⟨before.map (·.alone), after.map (·.alone), ?_, ?_⟩
  · rw [hsplit, List.map_append, List.map_append]
  · rw [hedit, Option.toList_none, NativeClass.allInScope, List.map_nil, List.nil_append]

theorem nodup_alone (hvalid : tree.validate = .ok ()) :
    (tree.scopedClasses.map (·.alone)).Nodup := by
  have hpaths := paths_nodup hvalid
  apply List.Nodup.of_map ScopedClass.path
  rwa [List.map_map]

theorem hasUnqualifiedNames_of_alone {tree' : Declarations} (hu : tree.HasUnqualifiedNames)
    (h : (tree'.scopedClasses.map (·.alone)).map (·.name) ⊆
      (tree.scopedClasses.map (·.alone)).map (·.name)) : tree'.HasUnqualifiedNames := by
  intro c hc
  have hname := h (List.mem_map_of_mem (List.mem_map_of_mem hc))
  obtain ⟨d, hd, heq⟩ := List.mem_map.mp hname
  obtain ⟨e, he, rfl⟩ := List.mem_map.mp hd
  have hsame : e.name = c.name := heq
  exact hsame ▸ hu e he

end Declarations

end NativeBindings
