import NativeBindings.Proofs.Generation.Account
import NativeBindings.Proofs.Scope.PreOrder

/-!
# Selected classes

A class is selected if no piece of its path is on the denylist and no earlier class that is not
denied has its name. The run decides this with two growing sets of texts: the qualified names of the
classes denied so far, and the export names of the destructors selected so far.
-/

namespace NativeBindings

namespace Denylist

/-- Some contiguous piece of the path is on the list. -/
def DeniesPath (denylist : Denylist) (path : List String) : Prop :=
  ∃ piece, piece ≠ [] ∧ piece <:+: path ∧ scopePath piece ∈ denylist.entries

variable {denylist : Denylist}

theorem deniesPath_iff_outerChains {path : List String} :
    denylist.DeniesPath path ↔
      ∃ p ∈ outerChains path, ∃ piece ∈ innerChains p, scopePath piece ∈ denylist.entries := by
  constructor
  · rintro ⟨piece, hne, hi, he⟩
    obtain ⟨p, hs, hp⟩ := List.infix_iff_suffix_prefix.mp hi
    have hpne : p ≠ [] := fun h => hne (List.suffix_nil.mp (h ▸ hs))
    exact ⟨p, mem_outerChains.mpr ⟨hpne, hp⟩, piece, mem_innerChains.mpr ⟨hne, hs⟩, he⟩
  · rintro ⟨p, hp, piece, hs, he⟩
    obtain ⟨hne, hs⟩ := mem_innerChains.mp hs
    exact ⟨piece, hne, hs.isInfix.trans (mem_outerChains.mp hp).2.isInfix, he⟩

instance (path : List String) : Decidable (denylist.DeniesPath path) :=
  decidable_of_iff _ deniesPath_iff_outerChains.symm

theorem deniesClass_iff {c : ScopedClass} :
    denylist.deniesClass c = true ↔
      ∃ piece, piece ≠ [] ∧ piece <:+ c.path ∧ scopePath piece ∈ denylist.entries := by
  simp [deniesClass, ScopedClass.scopedNames, mem_innerChains, contains, and_assoc]

theorem isInside_iff {c : ScopedClass} {ignored : List String} :
    c.isInside ignored = true ↔ ∃ p, p ≠ [] ∧ p <+: c.enclosing ∧ scopePath p ∈ ignored := by
  simp [ScopedClass.isInside, ScopedClass.ancestors, mem_outerChains, and_assoc]

theorem deniesPath_path_iff {c : ScopedClass} :
    denylist.DeniesPath c.path ↔ denylist.deniesClass c = true ∨
      ∃ p, p ≠ [] ∧ p <+: c.enclosing ∧ denylist.DeniesPath p := by
  rw [deniesClass_iff]
  constructor
  · rintro ⟨piece, hne, hi, he⟩
    rcases List.infix_concat_iff.mp hi with hs | hi
    · exact Or.inl ⟨piece, hne, hs, he⟩
    · obtain ⟨p, hs, hp⟩ := List.infix_iff_suffix_prefix.mp hi
      have hpne : p ≠ [] := fun h => hne (List.suffix_nil.mp (h ▸ hs))
      exact Or.inr ⟨p, hpne, hp, piece, hne, hs.isInfix, he⟩
  · rintro (⟨piece, hne, hs, he⟩ | ⟨p, -, hp, piece, hne, hi, he⟩)
    · exact ⟨piece, hne, hs.isInfix, he⟩
    · exact ⟨piece, hne, hi.trans (hp.trans (List.prefix_append _ _)).isInfix, he⟩

/-- Classes claim the names of their destructors unless their paths are denied. -/
def destructorClaims (denylist : Denylist) : Claims ScopedClass :=
  ⟨fun c => if denylist.DeniesPath c.path then some .ignored else none, ScopedClass.disposeName⟩

theorem name_destructorClaims (c : ScopedClass) :
    denylist.destructorClaims.name c = c.disposeName := rfl

theorem fault?_eq_none_iff {c : ScopedClass} :
    denylist.destructorClaims.fault? c = none ↔ ¬ denylist.DeniesPath c.path := by
  simp [destructorClaims]

theorem fault?_eq_some_iff {c : ScopedClass} {reason : SkipReason} :
    denylist.destructorClaims.fault? c = some reason ↔
      denylist.DeniesPath c.path ∧ reason = .ignored := by
  simp [destructorClaims, eq_comm]

/-- The texts of the denied classes so far stand for the denied paths among those seen. -/
def IgnoredInv (denylist : Denylist) (seen : List (List String)) (ignored : List String) : Prop :=
  ∀ text, text ∈ ignored ↔ ∃ p ∈ seen, denylist.DeniesPath p ∧ scopePath p = text

/-- Paths that can be told apart by their texts. -/
def Readable (p : List String) : Prop := p ≠ [] ∧ ∀ name ∈ p, IsUnqualified name

theorem IgnoredInv.cons_denied {seen : List (List String)} {ignored : List String}
    (h : denylist.IgnoredInv seen ignored) {c : ScopedClass} (hc : denylist.DeniesPath c.path) :
    denylist.IgnoredInv (c.path :: seen) (c.qualifiedName :: ignored) := by
  intro text
  rw [List.mem_cons, h text]
  simp [hc, ScopedClass.qualifiedName, eq_comm]

theorem IgnoredInv.cons_clear {seen : List (List String)} {ignored : List String}
    (h : denylist.IgnoredInv seen ignored) {c : ScopedClass} (hc : ¬ denylist.DeniesPath c.path) :
    denylist.IgnoredInv (c.path :: seen) ignored := by
  intro text
  rw [h text]
  simp [hc]

theorem deniesPath_iff_of_ignoredInv {seen : List (List String)} {ignored : List String}
    (hi : denylist.IgnoredInv seen ignored) (hs : ∀ p ∈ seen, Readable p) {c : ScopedClass}
    (hc : Readable c.path) (ho : ∀ p, p ≠ [] → p <+: c.enclosing → p ∈ seen) :
    (c.isInside ignored || denylist.deniesClass c) = true ↔ denylist.DeniesPath c.path := by
  rw [Bool.or_eq_true, deniesPath_path_iff, isInside_iff, or_comm]
  apply or_congr_right
  constructor
  · rintro ⟨p, hp, hpre, hm⟩
    obtain ⟨q, hq, hd, ht⟩ := (hi _).mp hm
    have hnames : ∀ name ∈ p, IsUnqualified name := fun name hn =>
      hc.2 name (List.mem_append_left _ (hpre.subset hn))
    obtain rfl : q = p := scopePath_injective (hs q hq).1 hp (hs q hq).2 hnames ht
    exact ⟨q, hp, hpre, hd⟩
  · rintro ⟨p, hp, hpre, hd⟩
    exact ⟨p, hp, hpre, (hi _).mpr ⟨p, ho p hp hpre, hd, rfl⟩⟩

/-- In a list with outer classes first, the loop decides by paths. -/
theorem classVerdicts_eq_verdicts {seen : List (List String)} {ignored : List String}
    (hi : denylist.IgnoredInv seen ignored) (hs : ∀ p ∈ seen, Readable p)
    {classes : List ScopedClass} (hc : ∀ c ∈ classes, Readable c.path)
    (ho : OuterFirst seen classes) (reserved : List String) :
    denylist.classVerdicts ignored reserved classes =
      denylist.destructorClaims.verdicts reserved classes := by
  -- The texts of denied paths stand for the paths of all classes before, in which those around the
  -- next class occur.
  induction classes generalizing seen ignored reserved with
  | nil => rfl
  | cons c rest ih =>
    obtain ⟨hhead, hrest⟩ := List.forall_mem_cons.mp hc
    have hs' : ∀ p ∈ c.path :: seen, Readable p := List.forall_mem_cons.mpr ⟨hhead, hs⟩
    have hstep := deniesPath_iff_of_ignoredInv hi hs hhead ho.1
    rw [classVerdicts, Claims.verdicts]
    by_cases hd : denylist.DeniesPath c.path
    · have hfault : denylist.destructorClaims.fault? c = some .ignored := if_pos hd
      rw [if_pos (hstep.mpr hd), ih (hi.cons_denied hd) hs' hrest ho.2, hfault]
    · have hfault : denylist.destructorClaims.fault? c = none := if_neg hd
      rw [if_neg (fun h => hd (hstep.mp h)), hfault, name_destructorClaims]
      simp only [ih (hi.cons_clear hd) hs' hrest ho.2, List.contains_iff_mem]

theorem disposeName_notMem_of_mem_classVerdicts {ignored reserved : List String}
    {classes : List ScopedClass} {c : ScopedClass}
    (h : (c, none) ∈ denylist.classVerdicts ignored reserved classes) :
    c.disposeName ∉ reserved := by
  induction classes generalizing ignored reserved with
  | nil => exact absurd h List.not_mem_nil
  | cons head rest ih =>
    rw [classVerdicts] at h
    split at h
    · exact ih (List.mem_of_ne_of_mem (by simp) h)
    · split at h
      · exact ih (List.mem_of_ne_of_mem (by simp) h)
      · rename_i hfree
        rcases List.mem_cons.mp h with heq | h
        · cases heq
          simpa using hfree
        · exact fun hr => ih h (List.mem_cons_of_mem _ hr)

theorem disposeNames_nodup (ignored reserved : List String) (classes : List ScopedClass) :
    (((denylist.classVerdicts ignored reserved classes).filterMap (·.selected?)).map
      (·.disposeName)).Nodup := by
  induction classes generalizing ignored reserved with
  | nil => simp [classVerdicts]
  | cons c rest ih =>
    rw [classVerdicts]
    split
    · exact ih _ _
    · split
      · exact ih _ _
      · have hhead : ClassVerdict.selected? (c, none) = some c := rfl
        rw [List.filterMap_cons_some hhead, List.map_cons, List.nodup_cons]
        refine ⟨fun hm => ?_, ih _ _⟩
        obtain ⟨d, hd, hname⟩ := List.mem_map.mp hm
        obtain ⟨v, hv, hs⟩ := List.mem_filterMap.mp hd
        rw [ClassVerdict.selected?_eq_some_iff.mp hs] at hv
        exact disposeName_notMem_of_mem_classVerdicts hv (hname ▸ List.mem_cons_self)

theorem isGone_disposeName_iff {earlier : List ScopedClass} {c : ScopedClass} :
    denylist.destructorClaims.IsGone [] earlier c.disposeName ↔
      ∃ d ∈ earlier, ¬ denylist.DeniesPath d.path ∧ d.name = c.name := by
  simp only [Claims.IsGone, List.not_mem_nil, false_or, fault?_eq_none_iff]
  apply exists_congr
  intro d
  rw [name_destructorClaims, ScopedClass.disposeName, ScopedClass.disposeName,
    String.append_left_inj]

end Denylist

/-- In a tree with unqualified names, selection goes by paths and names. -/
theorem GeneratorSettings.classVerdicts_eq_verdicts (settings : GeneratorSettings)
    {tree : Declarations} (hu : tree.HasUnqualifiedNames) :
    settings.classVerdicts tree =
      settings.denylist.destructorClaims.verdicts [] tree.scopedClasses := by
  have hinv : settings.denylist.IgnoredInv [] [] := by
    intro text
    simp
  have hreadable : ∀ c ∈ tree.scopedClasses, Denylist.Readable c.path := fun c hc =>
    ⟨by simp [ScopedClass.path], fun _ hn => Declarations.isUnqualified_of_mem_path hu hc hn⟩
  exact Denylist.classVerdicts_eq_verdicts hinv (fun p hp => absurd hp List.not_mem_nil) hreadable
    (OuterFirst.scopedClasses tree) []

/-- In a valid tree with unqualified names, the report says of each class what its path, the
denylist and the classes before it decide: a class is emitted if no piece of its path is denied and
no earlier class that is not denied has its name. Otherwise it is left out as denied, or since the
export name of its destructor is gone. -/
theorem class_emitted_iff {settings : GeneratorSettings} {tree : Declarations}
    (valid : tree.validate = .ok ()) (unqualified : tree.HasUnqualifiedNames) :
    ∃ result, settings.generate tree = .ok result ∧
      ∀ earlier c later, tree.scopedClasses = earlier ++ c :: later →
        (c.qualifiedName ∈ result.report.classes.map (·.qualifiedName) ↔
          ¬ settings.denylist.DeniesPath c.path ∧
            ∀ d ∈ earlier, ¬ settings.denylist.DeniesPath d.path → d.name ≠ c.name) ∧
        ∀ reason, ⟨c.qualifiedName, none, reason⟩ ∈ result.report.skipped ↔
          settings.denylist.DeniesPath c.path ∧ reason = .ignored ∨
            ¬ settings.denylist.DeniesPath c.path ∧
              (∃ d ∈ earlier, ¬ settings.denylist.DeniesPath d.path ∧ d.name = c.name) ∧
                reason = .duplicateExport (c.name ++ "_Dispose") := by
  refine ⟨settings.assemble tree, GeneratorSettings.generate_eq_ok_iff.mpr ⟨valid, rfl⟩, ?_⟩
  intro earlier c later hsplit
  let account := settings.runAccount tree
  have hmem := settings.denylist.destructorClaims.mem_verdicts_of_split [] earlier c later
  rw [← hsplit, ← settings.classVerdicts_eq_verdicts unqualified] at hmem
  have hnames : (account.classes.map (·.1.qualifiedName)).Nodup := by
    have h := Declarations.qualifiedNames_nodup valid unqualified
    rwa [← account.collected, List.map_map] at h
  -- The qualified name leads back to the one verdict on the class.
  have hverdict : ∀ reason?, (∃ d, (d, reason?) ∈ account.classes ∧
      d.qualifiedName = c.qualifiedName) ↔
        settings.denylist.destructorClaims.verdict [] earlier c = reason? := by
    intro reason?
    constructor
    · rintro ⟨d, hd, hq⟩
      have heq := List.inj_on_of_nodup_map hnames hmem hd hq.symm
      exact congrArg Prod.snd heq
    · rintro rfl
      exact ⟨c, hmem, rfl⟩
  constructor
  · rw [account.mem_entries_iff, hverdict, Claims.verdict_eq_none_iff,
      Denylist.fault?_eq_none_iff, Denylist.name_destructorClaims, Denylist.isGone_disposeName_iff]
    simp only [not_exists, not_and, ne_eq]
  · intro reason
    rw [account.mem_skipped_class_iff, hverdict, Claims.verdict_eq_some_iff,
      Denylist.fault?_eq_none_iff, Denylist.fault?_eq_some_iff, Denylist.name_destructorClaims,
      Denylist.isGone_disposeName_iff]
    rfl

/-- A class inside a denied one, and a class with the name of an earlier one. -/
def Declarations.nested : Declarations :=
  let denied := (NativeClass.ofName "scopeindex_t").addClass (.ofName "entry")
  let json := (NativeClass.ofName "ParsedJson").addClass
    ((NativeClass.ofName "iterator").addClass denied)
  ⟨none, [json, (NativeClass.ofName "Other").addClass (.ofName "iterator")]⟩

theorem class_emitted_iff_nested :
    Declarations.nested.validate = .ok () ∧ Declarations.nested.HasUnqualifiedNames ∧
      ∃ result, GeneratorSettings.default.generate .nested = .ok result ∧
        "ParsedJson::iterator" ∈ result.report.classes.map (·.qualifiedName) ∧
        ⟨"ParsedJson::iterator::scopeindex_t::entry", none, .ignored⟩ ∈ result.report.skipped ∧
        ⟨"Other::iterator", none, .duplicateExport "iterator_Dispose"⟩ ∈
          result.report.skipped := by
  have hvalid : Declarations.nested.validate = .ok () := rfl
  have hnames : Declarations.nested.HasUnqualifiedNames := by decide +kernel
  obtain ⟨result, h, hrule⟩ := @class_emitted_iff .default _ hvalid hnames
  let classes := Declarations.nested.scopedClasses
  have hsplit : ∀ i (hi : i < classes.length),
      classes = classes.take i ++ classes[i] :: classes.drop (i + 1) := by
    intro i hi
    rw [List.getElem_cons_drop, List.take_append_drop]
  refine ⟨hvalid, hnames, result, h, ?_, ?_, ?_⟩
  · exact (hrule _ _ _ (hsplit 1 (by decide))).1.mpr (by decide +kernel)
  · exact ((hrule _ _ _ (hsplit 3 (by decide))).2 _).mpr (by decide +kernel)
  · exact ((hrule _ _ _ (hsplit 5 (by decide))).2 _).mpr (by decide +kernel)

end NativeBindings
