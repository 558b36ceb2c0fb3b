import NativeBindings.Proofs.Generation.Account
import NativeBindings.Proofs.Native.BaseName
import NativeBindings.Proofs.Policy.Admission
import NativeBindings.Proofs.Scope.Path

/-!
# Denied classes in signatures

A class that a run leaves out as denied has a name in which an entry of the denylist occurs: the
whole chain of its scopes, and whatever shorter chain still holds the entry. No function that the
run exports mentions the class by such a name. By a shorter name, in which no entry occurs, it can
be mentioned.
-/

namespace NativeBindings

open Text

namespace ScopedClass

theorem infix_qualifiedName_of_mem_ancestors {c : ScopedClass} {text : String}
    (h : text ∈ c.ancestors) : text.toList <:+: c.qualifiedName.toList := by
  obtain ⟨p, hp, rfl⟩ := List.mem_map.mp h
  have hpre : p <+: c.path := (mem_outerChains.mp hp).2.trans (List.prefix_append _ _)
  exact scopePath_isInfix hpre.isInfix

theorem infix_qualifiedName_of_mem_scopedNames {c : ScopedClass} {name : String}
    (h : name ∈ c.scopedNames) : name.toList <:+: c.qualifiedName.toList := by
  obtain ⟨p, hp, rfl⟩ := List.mem_map.mp h
  exact scopePath_isInfix (mem_innerChains.mp hp).2.isInfix

end ScopedClass

namespace Denylist

variable {denylist : Denylist}

theorem matchesType_qualifiedName_of_deniesClass {c : ScopedClass}
    (h : denylist.deniesClass c = true) : denylist.matchesType c.qualifiedName = true := by
  obtain ⟨name, hn, hc⟩ := List.any_eq_true.mp h
  have hentry : name ∈ denylist.entries := by simpa [contains] using hc
  exact matchesType_iff.mpr ⟨name, hentry, ScopedClass.infix_qualifiedName_of_mem_scopedNames hn⟩

theorem matchesType_qualifiedName_of_isInside {ignored : List String} {c : ScopedClass}
    (hi : ∀ text ∈ ignored, denylist.matchesType text = true) (h : c.isInside ignored = true) :
    denylist.matchesType c.qualifiedName = true := by
  obtain ⟨text, ht, hm⟩ := List.any_eq_true.mp h
  have htext : denylist.matchesType text = true := hi text (by simpa using hm)
  exact matchesType_of_infix (ScopedClass.infix_qualifiedName_of_mem_ancestors ht) htext

/-- An entry occurs in the qualified name of every class that is left out as denied, as it does in
those of the classes denied before it. -/
theorem matchesType_qualifiedName_of_mem_classVerdicts {ignored reserved : List String}
    {classes : List ScopedClass} {c : ScopedClass}
    (hi : ∀ text ∈ ignored, denylist.matchesType text = true)
    (h : (c, some .ignored) ∈ denylist.classVerdicts ignored reserved classes) :
    denylist.matchesType c.qualifiedName = true := by
  induction classes generalizing ignored reserved with
  | nil => exact absurd h List.not_mem_nil
  | cons head rest ih =>
    rw [classVerdicts] at h
    split at h
    · rename_i hdenied
      have hhead : denylist.matchesType head.qualifiedName = true := by
        rcases Bool.or_eq_true_iff.mp hdenied with hin | hown
        · exact matchesType_qualifiedName_of_isInside hi hin
        · exact matchesType_qualifiedName_of_deniesClass hown
      rcases List.mem_cons.mp h with heq | h
      · cases heq
        exact hhead
      · exact ih (List.forall_mem_cons.mpr ⟨hhead, hi⟩) h
    · split at h
      · exact ih hi (List.mem_of_ne_of_mem (by simp) h)
      · exact ih hi (List.mem_of_ne_of_mem (by simp) h)

end Denylist

/-- A parameter, or the result unless the function is a constructor, is of the type of this name
below all its pointers, references and `const` qualifiers. -/
def MemberFunction.Mentions (function : MemberFunction) (name : String) : Prop :=
  (∃ param ∈ function.params, param.type.baseName = name) ∨
    (function.isConstructor = false ∧ function.returnType.baseName = name)

instance (function : MemberFunction) (name : String) : Decidable (function.Mentions name) :=
  inferInstanceAs (Decidable (_ ∨ _))

theorem Admission.not_mentions_of_fault?_eq_none {admission : Admission}
    {function : MemberFunction} (h : admission.fault? function = none) {name : String}
    (hname : admission.denylist.matchesType name = true) : ¬ function.Mentions name := by
  obtain ⟨-, hparams, hreturn⟩ := fault?_eq_none_iff.mp h
  have hspelling : ∀ type : NativeType, type.baseName = name →
      admission.denylist.matchesType type.spelling = true := by
    rintro type rfl
    exact Denylist.matchesType_of_infix type.baseName_isInfix hname
  rintro (⟨param, hp, hb⟩ | ⟨hc, hb⟩)
  · have hclear := (parameterFault?_eq_none_iff.mp (hparams param hp)).1
    rw [hspelling _ hb] at hclear
    cases hclear
  · have hclear := (returnFault?_eq_none_iff.mp (hreturn hc)).1
    rw [hspelling _ hb] at hclear
    cases hclear

/-- A class that a run leaves out as denied has an entry of the denylist in its qualified name, and
no exported function mentions the class by its qualified name, nor by any other of its scoped names
in which an entry occurs. -/
theorem ignored_not_mentioned {settings : GeneratorSettings} {tree : Declarations}
    {result : Generated} (h : settings.generate tree = .ok result) :
    ∃ account : RunAccount settings tree result,
      ∀ c, (c, some SkipReason.ignored) ∈ account.classes →
        settings.denylist.matchesType c.qualifiedName = true ∧
        ∀ a ∈ account.selected, ∀ x ∈ a.exported, ∀ name ∈ c.scopedNames,
          settings.denylist.matchesType name = true → ¬ x.function.Mentions name := by
  obtain ⟨-, rfl⟩ := GeneratorSettings.generate_eq_ok_iff.mp h
  refine ⟨settings.runAccount tree, ?_⟩
  intro c hc
  constructor
  · exact Denylist.matchesType_qualifiedName_of_mem_classVerdicts (by simp) hc
  · intro a ha x hx name _ hmatch
    have hadmitted := GeneratorSettings.fault?_of_mem_exported ha hx
    exact Admission.not_mentions_of_fault?_eq_none hadmitted hmatch

/-- A denied class, a method that mentions it by its whole path, and one that mentions it by its
bare name, as C++ lets the members of the class around it do. -/
def Declarations.denied : Declarations :=
  let whole := (MemberFunction.method "raise" .void).addParameter
    ⟨"e", ⟨"const ParsedJson::InvalidJSON &"⟩⟩
  let bare := (MemberFunction.method "report" .void).addParameter ⟨"e", ⟨"InvalidJSON"⟩⟩
  ⟨none, [(NativeClass.ofName "ParsedJson").addFunction whole |>.addFunction bare
    |>.addClass (.ofName "InvalidJSON")]⟩

theorem GeneratorSettings.generate_denied :
    GeneratorSettings.default.generate .denied =
      .ok (GeneratorSettings.default.assemble .denied) :=
  generate_eq_ok_iff.mpr ⟨rfl, rfl⟩

theorem GeneratorSettings.skipped_denied : ⟨"ParsedJson::InvalidJSON", none, .ignored⟩ ∈
    (GeneratorSettings.default.assemble .denied).report.skipped := by
  decide +kernel

theorem ignored_not_mentioned_denied :
    ∃ result, GeneratorSettings.default.generate .denied = .ok result ∧
      ∃ account : RunAccount .default .denied result,
        ∃ c, (c, some SkipReason.ignored) ∈ account.classes ∧
          c.qualifiedName = "ParsedJson::InvalidJSON" ∧
          ∀ a ∈ account.selected, ∀ x ∈ a.exported,
            ¬ x.function.Mentions "ParsedJson::InvalidJSON" := by
  have h := GeneratorSettings.generate_denied
  obtain ⟨account, hrule⟩ := ignored_not_mentioned h
  obtain ⟨c, hc, hname⟩ := account.mem_skipped_class_iff.mp GeneratorSettings.skipped_denied
  obtain ⟨hmatch, hclear⟩ := hrule c hc
  have hwhole : c.qualifiedName ∈ c.scopedNames :=
    List.mem_map_of_mem (mem_innerChains.mpr ⟨by simp [ScopedClass.path], List.suffix_rfl⟩)
  refine ⟨_, h, account, c, hc, hname, ?_⟩
  intro a ha x hx
  rw [← hname]
  exact hclear a ha x hx _ hwhole hmatch

/-- By its bare name, which belongs to no class that gets bindings, an exported function does
mention a denied class: no entry of the denylist occurs in the bare name. -/
theorem ignored_mentioned_by_bare_name :
    ∃ result, GeneratorSettings.default.generate .denied = .ok result ∧
      ∃ account : RunAccount .default .denied result,
        ∃ c, (c, some SkipReason.ignored) ∈ account.classes ∧ "InvalidJSON" ∈ c.scopedNames ∧
          (∃ a ∈ account.selected, ∃ x ∈ a.exported, x.function.Mentions "InvalidJSON") ∧
          ∀ a ∈ account.selected, "InvalidJSON" ∉ a.owner.scopedNames := by
  let account := GeneratorSettings.default.runAccount .denied
  obtain ⟨c, hc, hname⟩ := account.mem_skipped_class_iff.mp GeneratorSettings.skipped_denied
  have hlisted : c ∈ Declarations.denied.scopedClasses := by
    rw [← account.collected]
    exact List.mem_map_of_mem hc
  have hbare : ∀ d ∈ Declarations.denied.scopedClasses,
      d.qualifiedName = "ParsedJson::InvalidJSON" → "InvalidJSON" ∈ d.scopedNames := by
    decide +kernel
  exact ⟨_, GeneratorSettings.generate_denied, account, c, hc, hbare c hlisted hname,
    by decide +kernel, by decide +kernel⟩

end NativeBindings
