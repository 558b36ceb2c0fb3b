import NativeBindings.Proofs.Generation.Account
import Mathlib.Algebra.GroupWithZero.Nat

/-!
# Coverage of the report

The report accounts for every declaration exactly once: a class is emitted or has one record, and a
function of an emitted class has one export or one record.
-/

namespace NativeBindings

private theorem length_filterMap_add_filterMap {α β γ : Type} {f : α → Option β} {g : α → Option γ}
    (h : ∀ x, (f x).isSome = (g x).isNone) (xs : List α) :
    (xs.filterMap f).length + (xs.filterMap g).length = xs.length := by
  have hsplit := xs.length_eq_countP_add_countP fun x => (f x).isSome
  have hg : (fun x => decide ¬ (f x).isSome = true) = fun x => (g x).isSome := by
    funext x
    rw [h x]
    cases g x <;> rfl
  rw [hg] at hsplit
  rw [List.length_filterMap_eq_countP, List.length_filterMap_eq_countP, hsplit]

theorem length_granted_add_records (decided : List CandidateVerdict) :
    (Claims.granted decided).length + (decided.filterMap (·.record?)).length = decided.length := by
  apply length_filterMap_add_filterMap
  rintro ⟨x, _ | reason⟩ <;> rfl

theorem length_selected_add_records (verdicts : List ClassVerdict) :
    (verdicts.filterMap (·.selected?)).length + (verdicts.filterMap (·.record?)).length =
      verdicts.length := by
  apply length_filterMap_add_filterMap
  rintro ⟨c, _ | reason⟩ <;> rfl

theorem sum_functions_add_length {accounts : List ClassAccount}
    (h : ∀ a ∈ accounts, a.exported.length + a.skipped.length =
      a.owner.decl.constructors.length + a.owner.decl.functions.length) :
    (accounts.map fun a =>
        a.owner.decl.constructors.length + a.owner.decl.functions.length).sum + accounts.length =
      (accounts.map fun a => a.exported.length + 1).sum +
        (accounts.flatMap (·.skipped)).length := by
  induction accounts with
  | nil => rfl
  | cons a rest ih =>
    obtain ⟨ha, hrest⟩ := List.forall_mem_cons.mp h
    have htail := ih hrest
    simp only [List.map_cons, List.sum_cons, List.length_cons, List.flatMap_cons,
      List.length_append]
    omega

namespace RunAccount

variable {settings : GeneratorSettings} {tree : Declarations} {result : Generated}
  (account : RunAccount settings tree result)

theorem filter_class_records :
    result.report.skipped.filter (·.function.isNone) = account.classes.filterMap (·.record?) := by
  have hclasses : ∀ r ∈ account.classes.filterMap (·.record?), r.function.isNone = true :=
    fun r hr => Option.isNone_iff_eq_none.mpr (ClassVerdict.function_eq_none_of_record? hr)
  have hfunctions : ∀ r ∈ account.selected.flatMap (·.skipped), ¬ r.function.isNone = true := by
    intro r hr hnone
    obtain ⟨a, -, ha⟩ := List.mem_flatMap.mp hr
    exact ClassAccount.function_ne_none_of_mem_skipped ha (Option.isNone_iff_eq_none.mp hnone)
  rw [account.skipped, List.filter_append, List.filter_eq_self.mpr hclasses,
    List.filter_eq_nil_iff.mpr hfunctions, List.append_nil]

theorem filter_function_records :
    result.report.skipped.filter (·.function.isSome) = account.selected.flatMap (·.skipped) := by
  have hclasses : ∀ r ∈ account.classes.filterMap (·.record?), ¬ r.function.isSome = true := by
    intro r hr hsome
    exact Option.isSome_iff_ne_none.mp hsome (ClassVerdict.function_eq_none_of_record? hr)
  have hfunctions : ∀ r ∈ account.selected.flatMap (·.skipped), r.function.isSome = true := by
    intro r hr
    obtain ⟨a, -, ha⟩ := List.mem_flatMap.mp hr
    exact Option.isSome_iff_ne_none.mpr (ClassAccount.function_ne_none_of_mem_skipped ha)
  rw [account.skipped, List.filter_append, List.filter_eq_nil_iff.mpr hclasses,
    List.filter_eq_self.mpr hfunctions, List.nil_append]

/-- An account has every function of its class exactly once. -/
theorem functions_perm {a : ClassAccount} (ha : a ∈ account.selected) :
    ((a.dropped ++ a.considered).map (·.1.function)).Perm
      (a.owner.decl.constructors ++ a.owner.decl.functions) := by
  have hdropped : a.dropped.map (·.1.function) =
      settings.constructors.dropped a.owner.decl.constructors := by
    rw [account.dropped a ha, List.map_map]
    exact List.map_id _
  have hconsidered : a.considered.map (·.1.function) =
      (settings.constructors.bound? a.owner.decl.constructors).toList ++
        a.owner.decl.functions := by
    have h := congrArg (List.map (·.function)) (account.considered a ha)
    rw [List.map_map, List.map_map] at h
    exact h.trans (List.map_id _)
  rw [List.map_append, hdropped, hconsidered, ← List.append_assoc]
  apply List.Perm.append_right
  have hall := settings.constructors.bound?_append_dropped a.owner.decl.constructors
  exact List.perm_append_comm.trans (List.Perm.of_eq hall)

theorem length_exported_add_skipped {a : ClassAccount} (ha : a ∈ account.selected) :
    a.exported.length + a.skipped.length =
      a.owner.decl.constructors.length + a.owner.decl.functions.length := by
  have hdropped : Claims.granted a.dropped = [] := by
    rw [account.dropped a ha]
    simp [Claims.granted, Claims.granted?]
  have hsum := length_granted_add_records (a.dropped ++ a.considered)
  have hall := (account.functions_perm ha).length_eq
  rw [Claims.granted_append, hdropped, List.nil_append] at hsum
  rw [List.length_map, List.length_append] at hall
  rw [ClassAccount.exported, ClassAccount.skipped, hsum, List.length_append, hall,
    List.length_append]

theorem exportCount_eq :
    result.report.exportCount = (account.selected.map fun a => a.exported.length + 1).sum := by
  rw [GenerationReport.exportCount, account.entries, List.foldr_map, List.sum_eq_foldr,
    List.foldr_map]
  simp only [ClassAccount.report, List.length_append, List.length_map, List.length_singleton]

end RunAccount

/-- The report of a successful run accounts for every declaration of the tree exactly once. -/
theorem report_covers_declarations {settings : GeneratorSettings} {tree : Declarations}
    {result : Generated} (h : settings.generate tree = .ok result) :
    ∃ account : RunAccount settings tree result,
      (∀ a ∈ account.selected, ((a.dropped ++ a.considered).map (·.1.function)).Perm
        (a.owner.decl.constructors ++ a.owner.decl.functions)) ∧
      tree.scopedClasses.length =
        result.report.classes.length + (result.report.skipped.filter (·.function.isNone)).length ∧
      (account.selected.map fun a =>
          a.owner.decl.constructors.length + a.owner.decl.functions.length).sum +
        account.selected.length =
          result.report.exportCount +
            (result.report.skipped.filter (·.function.isSome)).length := by
  obtain ⟨-, rfl⟩ := GeneratorSettings.generate_eq_ok_iff.mp h
  let account := settings.runAccount tree
  refine ⟨account, fun a ha => account.functions_perm ha, ?_, ?_⟩
  · have hentries : (settings.assemble tree).report.classes.length =
        (account.classes.filterMap (·.selected?)).length := by
      rw [account.entries, List.length_map, ← account.owners, List.length_map]
    rw [account.filter_class_records, hentries, length_selected_add_records, ← account.collected,
      List.length_map]
  · rw [account.filter_function_records, account.exportCount_eq]
    exact sum_functions_add_length fun a ha => account.length_exported_add_skipped ha

theorem report_covers_colliding_declarations :
    ∃ result, GeneratorSettings.default.generate .colliding = .ok result ∧
      result.report.exportCount = 6 ∧
      ∃ account : RunAccount .default .colliding result,
        (account.selected.map fun a =>
          a.owner.decl.constructors.length + a.owner.decl.functions.length).sum +
            account.selected.length = 11 := by
  obtain ⟨account, -, -, hcount⟩ := report_covers_declarations GeneratorSettings.generate_colliding
  refine ⟨_, GeneratorSettings.generate_colliding, by decide +kernel, account, ?_⟩
  exact hcount.trans (by decide +kernel)

end NativeBindings
