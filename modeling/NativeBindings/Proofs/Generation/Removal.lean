import NativeBindings.Proofs.Generation.Replacement
import NativeBindings.Proofs.Generation.Selection

/-!
# Removing what is left out

A declaration that a run leaves out has no influence on anything else. If it is removed from the
tree, the run comes to the same documents and entries, and only its own records are missing.
-/

namespace NativeBindings

namespace GeneratorSettings

variable {settings : GeneratorSettings} {tree : Declarations}

theorem classVerdicts_alone (hu : tree.HasUnqualifiedNames) :
    (settings.classVerdicts tree).map (·.alone) =
      settings.denylist.destructorClaims.verdicts [] (tree.scopedClasses.map (·.alone)) := by
  have hclaims := settings.denylist.destructorClaims.verdicts_map ScopedClass.alone
    (fun _ => rfl) (fun _ => rfl) [] tree.scopedClasses
  rw [hclaims, settings.classVerdicts_eq_verdicts hu]
  rfl

theorem assemble_eq_of_alone (hu : tree.HasUnqualifiedNames) {decided : List ClassVerdict}
    (h : settings.denylist.destructorClaims.verdicts [] (tree.scopedClasses.map (·.alone)) =
      decided) : settings.assemble tree = settings.assembleDecided decided := by
  rw [← h, ← classVerdicts_alone hu, assembleDecided_alone, assemble_eq_assembleDecided]

theorem mem_classVerdicts_of_mem_classBindings {b : ClassBindings}
    (hb : b ∈ settings.classBindings tree) : (b.owner, none) ∈ settings.classVerdicts tree := by
  have howner : b.owner ∈ settings.selectedClasses tree := by
    rw [← settings.bindSelected_owner (settings.selectedClasses tree)]
    exact List.mem_map_of_mem hb
  obtain ⟨v, hv, hselected⟩ := List.mem_filterMap.mp howner
  rwa [ClassVerdict.selected?_eq_some_iff.mp hselected] at hv

theorem mem_scopedClasses_of_mem_classVerdicts {c : ScopedClass} {reason? : Option SkipReason}
    (h : (c, reason?) ∈ settings.classVerdicts tree) : c ∈ tree.scopedClasses := by
  rw [← settings.denylist.classVerdicts_fst [] [] tree.scopedClasses]
  exact List.mem_map_of_mem h

/-- A class that is given other members is decided about as before, and so are all others. Paths
tell classes apart, so that it stands at one position only. -/
theorem exists_classVerdicts_edit (hvalid : tree.validate = .ok ()) (hu : tree.HasUnqualifiedNames)
    {c : ScopedClass} {reason? : Option SkipReason}
    (hc : (c, reason?) ∈ settings.classVerdicts tree) :
    ∃ earlier later, (settings.classVerdicts tree).map (·.alone) =
        earlier ++ (c.alone, reason?) :: later ∧
      c.alone ∉ earlier.map (·.1) ∧ c.alone ∉ later.map (·.1) ∧
      ∀ {edit constructors functions}, edit c.decl =
          some { c.decl with constructors := constructors, functions := functions } →
        settings.assemble (tree.edit c edit) = settings.assembleDecided
          (earlier ++ (c.withMembers constructors functions, reason?) :: later) := by
  obtain ⟨before, after, hsplit, hreplace⟩ :=
    Declarations.exists_scopedClasses_replace hvalid (mem_scopedClasses_of_mem_classVerdicts hc)
  obtain ⟨earlier, decision, later, hmiddle⟩ :=
    settings.denylist.destructorClaims.exists_verdicts_middle [] before c.alone after
  have hdecided : (settings.classVerdicts tree).map (·.alone) =
      earlier ++ (c.alone, decision) :: later := by
    rw [classVerdicts_alone hu, hsplit]
    exact hmiddle c.alone rfl rfl
  have hnodup : ((earlier ++ (c.alone, decision) :: later).map (·.1)).Nodup := by
    rw [← hdecided, classVerdicts_alone hu, Claims.verdicts_fst]
    exact Declarations.nodup_alone hvalid
  have hdecision : decision = reason? := by
    have hmem : (c.alone, reason?) ∈ earlier ++ (c.alone, decision) :: later := by
      rw [← hdecided]
      exact List.mem_map_of_mem hc
    have hthere : (c.alone, decision) ∈ earlier ++ (c.alone, decision) :: later :=
      List.mem_append_right _ List.mem_cons_self
    exact congrArg Prod.snd (List.inj_on_of_nodup_map hnodup hthere hmem rfl)
  subst hdecision
  rw [List.map_append, List.map_cons, List.nodup_middle, List.nodup_cons, List.mem_append,
    not_or] at hnodup
  refine ⟨earlier, later, hdecided, hnodup.1.1, hnodup.1.2, ?_⟩
  intro edit constructors functions hedit
  have hnew : (tree.edit c edit).scopedClasses.map (·.alone) =
      before ++ c.withMembers constructors functions :: after :=
    hreplace edit _ hedit rfl rfl
  have hu' : (tree.edit c edit).HasUnqualifiedNames := by
    apply Declarations.hasUnqualifiedNames_of_alone hu
    rw [hnew, hsplit, List.map_append, List.map_append, List.map_cons, List.map_cons]
    exact List.Subset.refl _
  apply assemble_eq_of_alone hu'
  rw [hnew]
  exact hmiddle (c.withMembers constructors functions) rfl rfl

theorem agreesBut_edit (hvalid : tree.validate = .ok ()) (hu : tree.HasUnqualifiedNames)
    {b : ClassBindings} (hb : b ∈ settings.classBindings tree)
    {constructors functions : List MemberFunction} {record : SkipRecord}
    (h : b.alone.LacksWith settings.constructors constructors functions record)
    {edit : NativeClass → Option NativeClass}
    (hedit : edit b.owner.decl = some
      { b.owner.decl with constructors := constructors, functions := functions }) :
    (settings.assemble tree).AgreesBut [record] (settings.assemble (tree.edit b.owner edit)) := by
  obtain ⟨earlier, later, hdecided, hearlier, hlater, hnew⟩ :=
    exists_classVerdicts_edit hvalid hu (mem_classVerdicts_of_mem_classBindings hb)
  have hbound : b.alone ∈ settings.bindSelected
      ((earlier ++ (b.owner.alone, none) :: later).filterMap ClassVerdict.selected?) := by
    rw [← hdecided, selected_alone, bindSelected_alone]
    exact List.mem_map_of_mem hb
  rw [assemble_eq_assembleDecided, ← assembleDecided_alone, hdecided, hnew hedit]
  exact agreesBut_replace hbound hearlier hlater h

theorem fault?_of_mem_inScope (hu : tree.HasUnqualifiedNames) {c : ScopedClass}
    (hc : (c, some .ignored) ∈ settings.classVerdicts tree) {d : ScopedClass}
    (hd : d ∈ c.decl.inScope c.enclosing) :
    settings.denylist.destructorClaims.fault? d = some .ignored := by
  rw [settings.classVerdicts_eq_verdicts hu] at hc
  obtain ⟨earlier, later, hsplit⟩ := List.append_of_mem hc
  have hverdict := (settings.denylist.destructorClaims.verdict_of_verdicts hsplit).symm
  rcases (Claims.verdict_eq_some_iff _ _ _ _ _).mp hverdict with hfault | ⟨-, -, hgone⟩
  · obtain ⟨⟨piece, hne, hpiece, hentry⟩, -⟩ := Denylist.fault?_eq_some_iff.mp hfault
    have hpath : c.path <+: d.path := c.decl.prefix_path_of_mem_inScope hd
    exact Denylist.fault?_eq_some_iff.mpr
      ⟨⟨piece, hne, hpiece.trans hpath.isInfix, hentry⟩, rfl⟩
  · cases hgone

/-- A denied class that is removed takes its records with it, and those of the classes nested in
it. -/
theorem agreesBut_edit_none (hvalid : tree.validate = .ok ()) (hu : tree.HasUnqualifiedNames)
    {c : ScopedClass} (hc : (c, some .ignored) ∈ settings.classVerdicts tree) :
    (settings.assemble tree).AgreesBut
      ((c.decl.inScope c.enclosing).map (·.deniedRecord))
      (settings.assemble (tree.edit c fun _ => none)) := by
  obtain ⟨before, after, hsplit, hnew⟩ := Declarations.exists_scopedClasses_remove hvalid
    (mem_scopedClasses_of_mem_classVerdicts hc)
  have hu' : (tree.edit c fun _ => none).HasUnqualifiedNames := by
    apply Declarations.hasUnqualifiedNames_of_alone hu
    rw [hnew, hsplit]
    apply List.map_subset
    exact ((List.Sublist.refl before).append (List.sublist_append_right _ _)).subset
  let claims := settings.denylist.destructorClaims
  have hfault : ∀ d ∈ (c.decl.inScope c.enclosing).map (·.alone),
      claims.fault? d = some .ignored := by
    intro d hd
    obtain ⟨e, he, rfl⟩ := List.mem_map.mp hd
    have hdenied : claims.fault? e = some .ignored := fault?_of_mem_inScope hu hc he
    exact hdenied
  have hold := claims.verdicts_append [] before
    ((c.decl.inScope c.enclosing).map (·.alone) ++ after)
  rw [claims.verdicts_append_of_fault hfault, ← hsplit] at hold
  have hless := claims.verdicts_append [] before after
  rw [← hnew] at hless
  rw [assemble_eq_of_alone hu hold, assemble_eq_of_alone hu' hless]
  have hrecords : ((c.decl.inScope c.enclosing).map (·.alone)).map (·.deniedRecord) =
      (c.decl.inScope c.enclosing).map (·.deniedRecord) := by
    rw [List.map_map]
    rfl
  rw [← hrecords]
  exact agreesBut_remove _ _ _

end GeneratorSettings

namespace NativeClass

def withoutFunction (c : NativeClass) (i : Nat) : NativeClass :=
  { c with functions := c.functions.eraseIdx i }

def withoutConstructor (c : NativeClass) (i : Nat) : NativeClass :=
  { c with constructors := c.constructors.eraseIdx i }

theorem keepsValid_withoutFunction (i : Nat) : KeepsValid fun c => some (c.withoutFunction i) :=
  .of_members (fun _ => rfl) (fun _ => rfl) fun c =>
    (List.Sublist.refl c.constructors).append (List.eraseIdx_sublist _ _)

theorem keepsValid_withoutConstructor (i : Nat) :
    KeepsValid fun c => some (c.withoutConstructor i) :=
  .of_members (fun _ => rfl) (fun _ => rfl) fun c =>
    (List.eraseIdx_sublist _ _).append (List.Sublist.refl c.functions)

end NativeClass

/-- A declaration that the run over a tree leaves out: the tree without it, and its records. -/
inductive LeftOut (settings : GeneratorSettings) (tree : Declarations) :
    Declarations → List SkipRecord → Prop
  /-- A member function of a bound class. Its outcome stands behind that of the constructor. -/
  | function {b : ClassBindings} {i : Nat} {name : String} {reason : SkipReason}
      (mem : b ∈ settings.classBindings tree)
      (skipped : b.outcomes[settings.constructors.behindBound b.owner.decl.constructors i]? =
        some (.skipped name reason)) :
      LeftOut settings tree (tree.edit b.owner fun c => some (c.withoutFunction i))
        [⟨b.owner.qualifiedName, some name, reason⟩]
  /-- A constructor of a bound class that the policy drops. -/
  | constructor {b : ClassBindings} {i : Nat} {name : String} {reason : SkipReason}
      (mem : b ∈ settings.classBindings tree)
      (dropped : b.dropped[i]? = some (.skipped name reason)) :
      LeftOut settings tree
        (tree.edit b.owner fun c => some (c.withoutConstructor
          (settings.constructors.behindBound b.owner.decl.constructors i)))
        [⟨b.owner.qualifiedName, some name, reason⟩]
  /-- A denied class, with everything nested in it. -/
  | deniedClass {c : ScopedClass} (mem : (c, some .ignored) ∈ settings.classVerdicts tree) :
      LeftOut settings tree (tree.edit c fun _ => none)
        ((c.decl.inScope c.enclosing).map (·.deniedRecord))

/-- What a run leaves out has no influence on anything else: without it, the run succeeds with the
same documents, the same entries, and the same records but its own. -/
theorem left_out_inert {settings : GeneratorSettings} {tree tree' : Declarations}
    {records : List SkipRecord} {result : Generated} (unqualified : tree.HasUnqualifiedNames)
    (h : settings.generate tree = .ok result) (hleft : LeftOut settings tree tree' records) :
    ∃ result', settings.generate tree' = .ok result' ∧
      result'.glue.text = result.glue.text ∧ result'.bindings.text = result.bindings.text ∧
        result'.report.classes = result.report.classes ∧
          ∃ before after, result.report.skipped = before ++ (records ++ after) ∧
            result'.report.skipped = before ++ after := by
  obtain ⟨hvalid, rfl⟩ := GeneratorSettings.generate_eq_ok_iff.mp h
  have hvalid' : tree'.validate = .ok () := by
    cases hleft with
    | function => exact Declarations.validate_edit (NativeClass.keepsValid_withoutFunction _) hvalid
    | constructor =>
      exact Declarations.validate_edit (NativeClass.keepsValid_withoutConstructor _) hvalid
    | deniedClass => exact Declarations.validate_edit .none hvalid
  have hagrees : (settings.assemble tree).AgreesBut records (settings.assemble tree') := by
    cases hleft with
    | function mem skipped =>
      exact GeneratorSettings.agreesBut_edit hvalid unqualified mem
        (ClassBindings.lacksWith_function skipped) rfl
    | constructor mem dropped =>
      exact GeneratorSettings.agreesBut_edit hvalid unqualified mem
        (ClassBindings.lacksWith_constructor dropped) rfl
    | deniedClass mem => exact GeneratorSettings.agreesBut_edit_none hvalid unqualified mem
  refine ⟨settings.assemble tree', GeneratorSettings.generate_eq_ok_iff.mpr ⟨hvalid', rfl⟩, ?_, ?_,
    hagrees.classes, hagrees.skipped⟩
  · rw [hagrees.glue]
  · rw [hagrees.bindings]

def Declarations.mixed : Declarations :=
  let denied := (NativeClass.ofName "simdjson").addClass (.ofName "entry")
  let owner := (NativeClass.ofName "A").addConstructor (.constructor "A")
    |>.addConstructor (.constructor "A")
    |>.addFunction (.method "operator+" .void)
    |>.addFunction (.method "read" .void)
    |>.addClass denied
  ⟨none, [owner, .ofName "B"]⟩

theorem left_out_inert_mixed :
    Declarations.mixed.HasUnqualifiedNames ∧
      ∃ result, GeneratorSettings.default.generate .mixed = .ok result ∧
        ∀ records ∈ [[⟨"A", some "operator+", .operator⟩], [⟨"A", some "A", .extraConstructor⟩],
          [⟨"A::simdjson", none, .ignored⟩, ⟨"A::simdjson::entry", none, .ignored⟩]],
          ∃ tree' result', LeftOut .default .mixed tree' records ∧
            GeneratorSettings.default.generate tree' = .ok result' ∧
              result'.glue.text = result.glue.text ∧
                result'.bindings.text = result.bindings.text := by
  have hnames : Declarations.mixed.HasUnqualifiedNames := by decide +kernel
  have h : GeneratorSettings.default.generate .mixed =
      .ok (GeneratorSettings.default.assemble .mixed) :=
    GeneratorSettings.generate_eq_ok_iff.mpr ⟨rfl, rfl⟩
  let b := (GeneratorSettings.default.classBindings .mixed).head (by decide +kernel)
  have hb : b ∈ GeneratorSettings.default.classBindings .mixed := List.head_mem _
  have hfunction : LeftOut .default .mixed _ [⟨"A", some "operator+", .operator⟩] :=
    .function (i := 0) hb rfl
  have hconstructor : LeftOut .default .mixed _ [⟨"A", some "A", .extraConstructor⟩] :=
    .constructor (i := 0) hb rfl
  let v := (GeneratorSettings.default.classVerdicts .mixed).get ⟨1, by decide +kernel⟩
  have hv : v.2 = some .ignored := by decide +kernel
  have hc : (v.1, some .ignored) ∈ GeneratorSettings.default.classVerdicts .mixed := by
    rw [← hv]
    exact List.get_mem _ _
  have hrecords : (v.1.decl.inScope v.1.enclosing).map (·.deniedRecord) =
      [⟨"A::simdjson", none, .ignored⟩, ⟨"A::simdjson::entry", none, .ignored⟩] := by
    decide +kernel
  have hclass := LeftOut.deniedClass hc
  rw [hrecords] at hclass
  refine ⟨hnames, _, h, ?_⟩
  intro records hrecords
  simp only [List.mem_cons, List.not_mem_nil, or_false] at hrecords
  rcases hrecords with rfl | rfl | rfl
  · obtain ⟨result', hok, hglue, hbindings, -⟩ := left_out_inert hnames h hfunction
    exact ⟨_, result', hfunction, hok, hglue, hbindings⟩
  · obtain ⟨result', hok, hglue, hbindings, -⟩ := left_out_inert hnames h hconstructor
    exact ⟨_, result', hconstructor, hok, hglue, hbindings⟩
  · obtain ⟨result', hok, hglue, hbindings, -⟩ := left_out_inert hnames h hclass
    exact ⟨_, result', hclass, hok, hglue, hbindings⟩

end NativeBindings
