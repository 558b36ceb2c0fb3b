import NativeBindings.Proofs.Boundary.Plans
import NativeBindings.Proofs.Generation.Selection
import Mathlib.Data.List.Perm.Basic

/-!
# Exports of a run

Glue, bindings and report name the same exports for each class, and no export name occurs twice.
Destructors keep their names against all functions; a function is exported if its signature is
admitted and no destructor and no admitted function before it has its name.
-/

namespace NativeBindings

/-- The glue, the wrapper and the report entry of a class name the same exports, with the destructor
last. -/
structure ExportsAgree (c : ScopedClass) (glue : GlueClass) (binding : BindingClass)
    (entry : ClassReport) : Prop where
  glueName : glue.qualifiedName = c.qualifiedName
  entryName : entry.qualifiedName = c.qualifiedName
  entryWrapper : entry.wrapper = binding.wrapperName
  imports : binding.members.map (·.importDecl.exportName) = glue.functions.map (·.exportName)
  targets : binding.members.map (·.wrapper.target) = glue.functions.map (·.exportName)
  glueDispose : glue.dispose.exportName = c.name ++ "_Dispose"
  importDispose : binding.dispose.exportName = c.name ++ "_Dispose"
  entryExports : entry.exportNames =
    glue.functions.map (·.exportName) ++ [c.name ++ "_Dispose"]

namespace ClassAccount

theorem imports_binding (rules : GenerationRules) (a : ClassAccount) :
    (a.binding rules).members.map (·.importDecl.exportName) = a.exported.map (·.exportName) := by
  rw [binding, List.map_map]
  rfl

theorem targets_binding (rules : GenerationRules) (a : ClassAccount) :
    (a.binding rules).members.map (·.wrapper.target) = a.exported.map (·.exportName) := by
  rw [binding, List.map_map]
  apply List.map_congr_left
  intro x _
  exact rules.binding.target_wrapFunction x.owner x.function x.exportName

theorem exportsAgree (rules : GenerationRules) (a : ClassAccount) :
    ExportsAgree a.owner (a.glue rules) (a.binding rules) (a.report rules) where
  glueName := rfl
  entryName := rfl
  entryWrapper := rfl
  imports := by rw [imports_binding, rules.exportNames_glue]
  targets := by rw [targets_binding, rules.exportNames_glue]
  glueDispose := rfl
  importDispose := rfl
  entryExports := by
    rw [rules.exportNames_glue]
    rfl

end ClassAccount

namespace RunAccount

variable {settings : GeneratorSettings} {tree : Declarations} {result : Generated}
  (account : RunAccount settings tree result)

theorem exportNames_perm :
    (account.selected.flatMap (·.exported.map (·.exportName)) ++
      account.selected.map (·.owner.disposeName)).Perm result.report.exportNames := by
  rw [GenerationReport.exportNames, account.entries, List.flatMap_map, List.map_eq_flatMap]
  exact List.flatMap_append_perm _ _ _

end RunAccount

namespace GenerationRules

theorem verdict_eq_none_iff (rules : GenerationRules) {taken : List String}
    {earlier : List Candidate} {x : Candidate} :
    rules.claims.verdict taken earlier x = none ↔ rules.admission.fault? x.function = none ∧
      (∀ name ∈ taken, x.exportName ≠ name) ∧
        ∀ y ∈ earlier, rules.admission.fault? y.function = none →
          y.exportName ≠ x.exportName := by
  rw [Claims.verdict_eq_none_iff, Claims.IsGone, not_or]
  apply and_congr_right
  intro _
  apply and_congr
  · constructor
    · rintro h _ hm rfl
      exact h hm
    · exact fun h hm => h _ hm rfl
  · constructor
    · exact fun h y hy hf hn => h ⟨y, hy, hf, hn⟩
    · rintro h ⟨y, hy, hf, hn⟩
      exact h y hy hf hn

end GenerationRules

namespace GeneratorSettings

theorem disposeNames_runAccount (settings : GeneratorSettings) (tree : Declarations) :
    (settings.runAccount tree).selected.map (·.owner.disposeName) =
      (settings.selectedClasses tree).map (·.disposeName) := by
  rw [← settings.classAccounts_owner tree, List.map_map]
  rfl

/-- The functions that a run exports are the candidates that get their names. -/
theorem flatMap_exported_runAccount (settings : GeneratorSettings) (tree : Declarations) :
    (settings.runAccount tree).selected.flatMap (·.exported) =
      Claims.granted ((settings.runAccount tree).selected.flatMap (·.considered)) := by
  simp only [ClassAccount.exported, Claims.granted, List.filterMap_flatMap]

theorem exportNames_nodup (settings : GeneratorSettings) (tree : Declarations) :
    (settings.assemble tree).report.exportNames.Nodup := by
  let account := settings.runAccount tree
  let claims := (settings.runRules tree).claims
  have hconsidered := settings.flatMap_considered_runAccount tree
  have hexported : account.selected.flatMap (·.exported.map (·.exportName)) =
      (account.selected.flatMap (·.exported)).map claims.name := by
    rw [List.map_flatMap]
    rfl
  rw [← account.exportNames_perm.nodup_iff, hexported, flatMap_exported_runAccount, hconsidered,
    disposeNames_runAccount, List.nodup_append]
  refine ⟨claims.names_of_granted_nodup _ _, Denylist.disposeNames_nodup _ _ _, ?_⟩
  rintro name hname _ hd rfl
  obtain ⟨x, hx, rfl⟩ := List.mem_map.mp hname
  exact claims.name_of_granted_notMem hx hd

end GeneratorSettings

/-- After a successful run, glue, bindings and report list the same classes in the same order, and
name the same exports for each; no export name occurs twice. -/
theorem exports_agree {settings : GeneratorSettings} {tree : Declarations} {result : Generated}
    (h : settings.generate tree = .ok result) :
    ∃ owners : List ScopedClass, owners.Sublist tree.scopedClasses ∧
      result.glue.classes.length = owners.length ∧
      result.bindings.classes.length = owners.length ∧
      result.report.classes.length = owners.length ∧
      (∀ (i : Nat) (c : ScopedClass) (glue : GlueClass) (binding : BindingClass)
        (entry : ClassReport), owners[i]? = some c → result.glue.classes[i]? = some glue →
          result.bindings.classes[i]? = some binding → result.report.classes[i]? = some entry →
            ExportsAgree c glue binding entry) ∧
      (result.report.classes.flatMap (·.exportNames)).Nodup := by
  obtain ⟨-, rfl⟩ := GeneratorSettings.generate_eq_ok_iff.mp h
  let account := settings.runAccount tree
  refine ⟨account.selected.map (·.owner), ?_, ?_, ?_, ?_, ?_, settings.exportNames_nodup tree⟩
  · rw [account.owners, ← account.collected]
    exact ClassVerdict.selected_sublist account.classes
  · rw [account.glue, List.length_map, List.length_map]
  · rw [account.bindings, List.length_map, List.length_map]
  · rw [account.entries, List.length_map, List.length_map]
  · intro i c glue binding entry hc hg hb he
    rw [List.getElem?_map] at hc
    rw [account.glue, List.getElem?_map] at hg
    rw [account.bindings, List.getElem?_map] at hb
    rw [account.entries, List.getElem?_map] at he
    obtain ⟨a, ha, rfl⟩ := Option.map_eq_some_iff.mp hc
    rw [ha, Option.map_some, Option.some_inj] at hg hb he
    subst hg hb he
    exact a.exportsAgree _

theorem exports_agree_colliding :
    ∃ result, GeneratorSettings.default.generate .colliding = .ok result ∧
      result.report.exportNames =
        ["A_A", "A_b_c", "A_s_x", "A_Dispose", "A_b_Dispose", "B_Dispose"] ∧
      result.report.exportNames.Nodup := by
  have h := GeneratorSettings.generate_colliding
  obtain ⟨_, _, _, _, _, _, hnodup⟩ := exports_agree h
  exact ⟨_, h, by decide +kernel, hnodup⟩

/-- Among all candidates of a run in the order of emission, one is exported if its signature is
admitted, no destructor has its name, and no admitted candidate before it has its name. An admitted
candidate that is left out has lost its name; any other is left out for the fault of its
signature. -/
theorem candidate_exported_iff {settings : GeneratorSettings} {tree : Declarations}
    {result : Generated} (h : settings.generate tree = .ok result) :
    ∃ account : RunAccount settings tree result,
      ∀ (earlier : List CandidateVerdict) (x : Candidate) (verdict : Option SkipReason)
        (later : List CandidateVerdict),
        account.selected.flatMap (·.considered) = earlier ++ (x, verdict) :: later →
          (verdict = none ↔ account.rules.admission.fault? x.function = none ∧
            (∀ a ∈ account.selected, x.exportName ≠ a.owner.disposeName) ∧
              ∀ y ∈ earlier, account.rules.admission.fault? y.1.function = none →
                y.1.exportName ≠ x.exportName) ∧
          (account.rules.admission.fault? x.function = none → verdict ≠ none →
            verdict = some (.duplicateExport x.exportName)) ∧
          ∀ reason, account.rules.admission.fault? x.function = some reason →
            verdict = some reason := by
  obtain ⟨-, rfl⟩ := GeneratorSettings.generate_eq_ok_iff.mp h
  refine ⟨settings.runAccount tree, ?_⟩
  intro earlier x verdict later hsplit
  rw [settings.flatMap_considered_runAccount] at hsplit
  have hverdict := Claims.verdict_of_verdicts _ hsplit
  rw [← settings.rules_runAccount, ← settings.disposeNames_runAccount] at hverdict
  rw [hverdict]
  refine ⟨?_, ?_, ?_⟩
  · rw [GenerationRules.verdict_eq_none_iff, List.forall_mem_map, List.forall_mem_map]
  · intro hfault hne
    obtain ⟨reason, hreason⟩ := Option.ne_none_iff_exists'.mp hne
    rcases (Claims.verdict_eq_some_iff _ _ _ _ _).mp hreason with hsome | ⟨-, -, rfl⟩
    · cases hfault.symm.trans hsome
    · exact hreason
  · intro reason hfault
    exact (Claims.verdict_eq_some_iff _ _ _ _ _).mpr (Or.inl hfault)

theorem candidate_exported_iff_colliding :
    ∃ result, GeneratorSettings.default.generate .colliding = .ok result ∧
      ⟨"A", some "b_Dispose", .duplicateExport "A_b_Dispose"⟩ ∈ result.report.skipped ∧
      ⟨"A_b", some "c", .duplicateExport "A_b_c"⟩ ∈ result.report.skipped ∧
      ∃ account : RunAccount .default .colliding result,
        ∀ (earlier : List CandidateVerdict) (x : Candidate) (later : List CandidateVerdict),
          account.selected.flatMap (·.considered) = earlier ++ (x, none) :: later →
            ∀ a ∈ account.selected, x.exportName ≠ a.owner.disposeName := by
  have h := GeneratorSettings.generate_colliding
  obtain ⟨account, hrule⟩ := candidate_exported_iff h
  refine ⟨_, h, by decide +kernel, by decide +kernel, account, ?_⟩
  intro earlier x later hsplit
  exact ((hrule earlier x none later hsplit).1.mp rfl).2.1

end NativeBindings
