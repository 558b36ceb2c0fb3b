import NativeBindings.Binding.Document
import NativeBindings.Glue.Exports
import NativeBindings.Proofs.Output.Layout

/-!
# Documents with more classes

Classes that come after all others leave the text of a document as it is, up to its end. Only the
bindings end in a line of their own, which closes the namespace.
-/

namespace NativeBindings

theorem GlueDocument.exists_text_append (headerInclude : String) (classes more : List GlueClass) :
    ∃ rest, GlueDocument.text ⟨headerInclude, classes ++ more⟩ =
      GlueDocument.text ⟨headerInclude, classes⟩ ++ rest := by
  simp only [text, layout, List.flatMap_append, ← List.append_assoc]
  exact exists_layoutText_append _ _

theorem forall_mem_intercalate {α : Type} {p : α → Prop} {separator : List α}
    {parts : List (List α)} (hs : ∀ a ∈ separator, p a) (h : ∀ part ∈ parts, ∀ a ∈ part, p a) :
    ∀ a ∈ List.intercalate separator parts, p a := by
  induction parts with
  | nil => simp [List.intercalate]
  | cons first rest ih =>
    obtain ⟨hfirst, hrest⟩ := List.forall_mem_cons.mp h
    cases rest with
    | nil => rwa [List.intercalate_singleton]
    | cons second others =>
      rw [List.intercalate_cons_cons, List.forall_mem_append, List.forall_mem_append]
      exact ⟨⟨hfirst, hs⟩, ih hrest⟩

namespace BindingDocument

private theorem isPrefix_intercalate {α : Type} (separator : List α) (parts more : List (List α)) :
    List.intercalate separator parts <+: List.intercalate separator (parts ++ more) := by
  induction parts with
  | nil => exact List.nil_prefix
  | cons first rest ih =>
    cases rest with
    | nil =>
      rw [List.intercalate_singleton]
      cases more with
      | nil =>
        rw [List.append_nil, List.intercalate_singleton]
      | cons second others =>
        rw [List.singleton_append, List.intercalate_cons_cons, List.append_assoc]
        exact List.prefix_append _ _
    | cons second others =>
      simp only [List.cons_append, List.intercalate_cons_cons] at ih ⊢
      exact (List.prefix_append_right_inj _).mpr ih

def body (document : BindingDocument) : List LayoutStep :=
  opening document.namespaceName ++
    List.intercalate [.blank]
      (document.classes.map fun c => [.block (c.text document.nativeLibrary)])

theorem isFlat_of_mem_classes (document : BindingDocument) :
    ∀ step ∈ List.intercalate [.blank]
      (document.classes.map fun c => [LayoutStep.block (c.text document.nativeLibrary)]),
      step.IsFlat := by
  apply forall_mem_intercalate
  · simp [LayoutStep.IsFlat]
  · simp [LayoutStep.IsFlat]

/-- The body leaves one level open, and the last line is a brace at the outermost. -/
theorem text_eq_body (document : BindingDocument) :
    document.text = layoutText document.body ++ "\x7d\n" := by
  have hopen : ((CodeWriter.atDepth 0).run (opening document.namespaceName)).depth = 1 := rfl
  have hdepth : ((CodeWriter.atDepth 0).run document.body).depth = 1 := by
    rw [body, CodeWriter.run_append,
      CodeWriter.depth_run_of_flat document.isFlat_of_mem_classes, hopen]
  change layoutText (document.body ++ [.closing "\x7d"]) = _
  rw [layoutText, CodeWriter.run_append]
  change ((CodeWriter.atDepth 0).run document.body).written ++
    CodeWriter.lineAt (((CodeWriter.atDepth 0).run document.body).depth - 1) "\x7d" = _
  rw [hdepth]
  rfl

theorem exists_body_append (namespaceName library : String) (classes more : List BindingClass) :
    ∃ rest, layoutText (body ⟨namespaceName, library, classes ++ more⟩) =
      layoutText (body ⟨namespaceName, library, classes⟩) ++ rest := by
  have hprefix : body ⟨namespaceName, library, classes⟩ <+:
      body ⟨namespaceName, library, classes ++ more⟩ := by
    simp only [body, List.map_append]
    exact (List.prefix_append_right_inj _).mpr (isPrefix_intercalate _ _ _)
  obtain ⟨steps, hsteps⟩ := hprefix
  rw [← hsteps]
  exact exists_layoutText_append _ steps

end BindingDocument

end NativeBindings
