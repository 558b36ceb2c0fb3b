import NativeBindings.Proofs.Documents.Exports
import NativeBindings.Proofs.Documents.Growth
import NativeBindings.Proofs.Output.Nesting

/-!
# Classes within a namespace

A class is laid out on its own, from depth zero, and then written into the bindings as one block.
This is as if its steps had been taken within the namespace.
-/

namespace NativeBindings

open Text

namespace BindingClass

variable (c : BindingClass) (nativeLibrary : String)

theorem isFlat_handleLayout : ∀ step ∈ c.handleLayout, step.IsFlat := by
  simp [handleLayout, LayoutStep.IsFlat]

theorem isFlat_members : ∀ step ∈ c.members.flatMap
    (fun m => [LayoutStep.block m.wrapper.text, LayoutStep.blank]), step.IsFlat := by
  intro step hstep
  obtain ⟨m, -, hm⟩ := List.mem_flatMap.mp hstep
  simp only [List.mem_cons, List.not_mem_nil, or_false] at hm
  rcases hm with rfl | rfl <;> trivial

theorem isFlat_importLayout : ∀ step ∈ c.importLayout nativeLibrary, step.IsFlat := by
  have himports : ∀ step ∈ List.intercalate [.blank]
      (c.members.map fun m => [LayoutStep.block (m.importDecl.text nativeLibrary)]),
      step.IsFlat := by
    apply forall_mem_intercalate
    · simp [LayoutStep.IsFlat]
    · simp [LayoutStep.IsFlat]
  rw [importLayout, List.forall_mem_append, List.forall_mem_append]
  exact ⟨⟨by simp [LayoutStep.IsFlat], himports⟩, by simp [LayoutStep.IsFlat]⟩

theorem endDepth_disposeLayout (depth : Nat) :
    endDepth depth (c.disposeLayout nativeLibrary) = depth := by
  simp [disposeLayout, LayoutStep.depthAfter]

theorem closesWithin_disposeLayout (depth : Nat) :
    ClosesWithin depth (c.disposeLayout nativeLibrary) := by
  simp [disposeLayout, LayoutStep.isClosing, LayoutStep.depthAfter]

theorem endDepth_layout : endDepth 0 (c.layout nativeLibrary) = 0 := by
  simp [layout, endDepth_of_flat c.isFlat_handleLayout, endDepth_of_flat c.isFlat_members,
    endDepth_of_flat (c.isFlat_importLayout nativeLibrary), endDepth_disposeLayout,
    LayoutStep.depthAfter]

theorem closesWithin_layout : ClosesWithin 0 (c.layout nativeLibrary) := by
  simp [layout, closesWithin_of_flat c.isFlat_handleLayout, closesWithin_of_flat c.isFlat_members,
    closesWithin_of_flat (c.isFlat_importLayout nativeLibrary), closesWithin_disposeLayout,
    endDepth_of_flat c.isFlat_handleLayout, endDepth_of_flat c.isFlat_members,
    endDepth_of_flat (c.isFlat_importLayout nativeLibrary), endDepth_disposeLayout,
    LayoutStep.isClosing, LayoutStep.depthAfter]

theorem run_block_text {c : BindingClass} {nativeLibrary : String}
    (h : ∀ step ∈ c.layout nativeLibrary, step.IsClean) (w : CodeWriter) :
    w.run [.block (c.text nativeLibrary)] = w.run (c.layout nativeLibrary) :=
  CodeWriter.run_block_layoutText h (c.closesWithin_layout nativeLibrary)
    (c.endDepth_layout nativeLibrary) w

end BindingClass

namespace BindingDocument

/-- The document with the steps of each class in place of its text. -/
def nestedLayout (document : BindingDocument) : List LayoutStep :=
  opening document.namespaceName ++
    List.intercalate [.blank] (document.classes.map (·.layout document.nativeLibrary)) ++
    [.closing "\x7d"]

theorem run_classes {classes : List BindingClass} {nativeLibrary : String}
    (h : ∀ c ∈ classes, ∀ step ∈ c.layout nativeLibrary, step.IsClean) (w : CodeWriter) :
    w.run (List.intercalate [.blank] (classes.map fun c => [.block (c.text nativeLibrary)])) =
      w.run (List.intercalate [.blank] (classes.map (·.layout nativeLibrary))) := by
  induction classes generalizing w with
  | nil => rfl
  | cons first rest ih =>
    obtain ⟨hfirst, hrest⟩ := List.forall_mem_cons.mp h
    have hstep := BindingClass.run_block_text hfirst w
    cases rest with
    | nil => simpa only [List.map_cons, List.map_nil, List.intercalate_singleton] using hstep
    | cons second others =>
      simp only [List.map_cons, List.intercalate_cons_cons, CodeWriter.run_append] at ih ⊢
      rw [hstep, ih hrest]

theorem text_eq_nested {document : BindingDocument}
    (h : ∀ c ∈ document.classes, ∀ step ∈ c.layout document.nativeLibrary, step.IsClean) :
    document.text = layoutText document.nestedLayout := by
  rw [text, layout, nestedLayout, layoutText, layoutText]
  simp only [CodeWriter.run_append, run_classes h]

end BindingDocument

/-- The text is one line, and something else than a carriage return stands at its end. -/
structure IsCleanLine (text : String) : Prop where
  inLine : ConsistsOf IsInLine text
  last : text.toList.getLast?.any (· != '\r') = true

theorem any_last_append {front back : String} {p : Char → Bool}
    (h : back.toList.getLast?.any p = true) : (front ++ back).toList.getLast?.any p = true := by
  rw [String.toList_append, List.getLast?_append]
  cases hlast : back.toList.getLast? with
  | none =>
    rw [hlast] at h
    cases h
  | some c => rwa [hlast] at h

theorem IsCleanLine.exists_last {text : String} (h : IsCleanLine text) :
    ∃ c, text.toList.getLast? = some c ∧ c ≠ '\r' := by
  obtain ⟨c, hc, hreturn⟩ := (Option.any_eq_true ..).mp h.last
  exact ⟨c, hc, by simpa using hreturn⟩

theorem IsCleanLine.lines_eq {text : String} (h : IsCleanLine text) :
    lines text.toList = [text.toList] := by
  apply lines_last (consistsOf_isInLine.mp h.inLine)
  obtain ⟨c, hc, -⟩ := h.exists_last
  intro hnil
  rw [hnil] at hc
  cases hc

namespace LayoutStep

theorem isClean_line {text : String} (h : IsCleanLine text) : (line text).IsClean := by
  obtain ⟨c, hc, hreturn⟩ := h.exists_last
  rw [IsClean, contents, List.forall_mem_singleton, hc]
  exact ⟨consistsOf_isInLine.mp h.inLine, by simpa using hreturn⟩

theorem isClean_block_comment (doc : Option String) : (block (summaryComment doc)).IsClean := by
  rw [IsClean, contents, lines_summaryComment]
  exact fun line hline => ⟨notMem_of_mem_commentLines hline, getLast?_of_mem_commentLines hline⟩

theorem isClean_blank : blank.IsClean := by decide

end LayoutStep

namespace WrapperMember

theorem isClean_text {m : WrapperMember} (h : ConsistsOf IsInLine m.signature) :
    (LayoutStep.block m.text).IsClean := by
  have hsignature : IsCleanLine m.signature := ⟨h, any_last_append (by decide)⟩
  rw [LayoutStep.IsClean, LayoutStep.contents, text, String.toList_append,
    lines_summaryComment_append, hsignature.lines_eq, List.forall_mem_append]
  exact ⟨fun line hline => ⟨notMem_of_mem_commentLines hline, getLast?_of_mem_commentLines hline⟩,
    LayoutStep.isClean_line hsignature⟩

end WrapperMember

namespace ImportDeclaration

theorem isClean_text {decl : ImportDeclaration} (h : decl.IsReadable) {library : String}
    (hl : ConsistsOf IsInLine library) : (LayoutStep.block (decl.text library)).IsClean := by
  have hattribute : IsCleanLine ("[DllImport(" ++ library ++
      ", CallingConvention = CallingConvention.Cdecl)]") := by
    refine ⟨?_, any_last_append (by decide)⟩
    rw [consistsOf_append, consistsOf_append]
    exact ⟨⟨by decide, hl⟩, by decide⟩
  have hdeclaration : IsCleanLine decl.declaration := by
    refine ⟨isInLine_declaration h, ?_⟩
    iterate 4 apply any_last_append
    decide
  have hend : ∀ rest : String, ("\n" ++ rest).toList = '\n' :: rest.toList := by
    intro rest
    rw [String.toList_append]
    rfl
  obtain ⟨hline, hreturn⟩ := LayoutStep.isClean_line hattribute _ (List.mem_singleton_self _)
  rw [LayoutStep.IsClean, LayoutStep.contents, text_eq, String.toList_append, hend,
    lines_line hline, withoutReturn_of_getLast? hreturn, hdeclaration.lines_eq,
    List.forall_mem_cons]
  exact ⟨⟨hline, hreturn⟩, LayoutStep.isClean_line hdeclaration⟩

end ImportDeclaration

namespace BindingClass

section

variable {c : BindingClass} (h : c.IsReadable) {library : String} (hl : ConsistsOf IsInLine library)

include h

theorem isClean_line_wrapperName {front back : String} (hfront : ConsistsOf IsInLine front)
    (hback : IsCleanLine back) : (LayoutStep.line (front ++ c.wrapperName ++ back)).IsClean := by
  refine LayoutStep.isClean_line ⟨?_, any_last_append hback.last⟩
  rw [consistsOf_append, consistsOf_append]
  exact ⟨⟨hfront, h.wrapperName⟩, hback.inLine⟩

theorem isClean_handleLayout : ∀ step ∈ c.handleLayout, step.IsClean := by
  have hconstructor : (LayoutStep.line
      ("public " ++ c.wrapperName ++ "(void* handle) => this.Handle = handle;")).IsClean :=
    isClean_line_wrapperName h (by decide) ⟨by decide, by decide⟩
  simp only [handleLayout, List.forall_mem_cons]
  exact ⟨LayoutStep.isClean_block_comment _, by decide +kernel, LayoutStep.isClean_blank,
    LayoutStep.isClean_block_comment _, hconstructor, LayoutStep.isClean_blank,
    fun _ hm => absurd hm List.not_mem_nil⟩

theorem isClean_members : ∀ step ∈ c.members.flatMap
    (fun m => [LayoutStep.block m.wrapper.text, LayoutStep.blank]), step.IsClean := by
  intro step hstep
  obtain ⟨m, hm, hstep⟩ := List.mem_flatMap.mp hstep
  simp only [List.mem_cons, List.not_mem_nil, or_false] at hstep
  rcases hstep with rfl | rfl
  · exact WrapperMember.isClean_text (h.signatures m hm)
  · exact LayoutStep.isClean_blank

include hl

theorem isClean_importLayout : ∀ step ∈ c.importLayout library, step.IsClean := by
  have himports : ∀ step ∈ List.intercalate [.blank]
      (c.members.map fun m => [LayoutStep.block (m.importDecl.text library)]), step.IsClean := by
    apply forall_mem_intercalate
    · simpa using LayoutStep.isClean_blank
    · simpa using fun m hm => ImportDeclaration.isClean_text (h.imports m hm) hl
  rw [importLayout, List.forall_mem_append, List.forall_mem_append]
  exact ⟨⟨by decide +kernel, himports⟩, by decide +kernel⟩

theorem isClean_disposeLayout : ∀ step ∈ c.disposeLayout library, step.IsClean := by
  have hopening : ∀ step ∈ disposeOpening, step.IsClean := by decide +kernel
  have hclosing : ∀ step ∈ disposeClosing, step.IsClean := by decide +kernel
  have hcall : (LayoutStep.line (c.dispose.exportName ++ "(Handle);")).IsClean := by
    refine LayoutStep.isClean_line ⟨?_, any_last_append (by decide)⟩
    rw [consistsOf_append]
    exact ⟨h.dispose.exportName.mono fun _ hc => hc.isPlain.isInLine, by decide⟩
  have hfinalizer : (LayoutStep.line ("~" ++ c.wrapperName ++ "() => Dispose();")).IsClean :=
    isClean_line_wrapperName h (by decide) ⟨by decide, by decide⟩
  simp only [disposeLayout_eq, List.forall_mem_append, List.forall_mem_singleton,
    List.forall_mem_cons]
  exact ⟨hopening, hcall, hclosing, ⟨hfinalizer, LayoutStep.isClean_blank⟩,
    ImportDeclaration.isClean_text h.dispose hl⟩

theorem isClean_layout : ∀ step ∈ c.layout library, step.IsClean := by
  have hopening : (LayoutStep.line
      ("public unsafe partial class " ++ c.wrapperName ++ " : IDisposable")).IsClean :=
    isClean_line_wrapperName h (by decide) ⟨by decide, by decide⟩
  simp only [layout, List.forall_mem_append]
  refine ⟨⟨⟨⟨⟨?_, isClean_handleLayout h⟩, isClean_members h⟩, isClean_importLayout h hl⟩,
    isClean_disposeLayout h hl⟩, by decide +kernel⟩
  rw [List.forall_mem_cons]
  exact ⟨hopening, by decide +kernel⟩

end

end BindingClass

theorem GeneratorSettings.text_eq_nested {settings : GeneratorSettings} {tree : Declarations}
    {result : Generated} (hs : settings.IsReadable) (ht : tree.IsReadable)
    (h : settings.generate tree = .ok result) :
    result.bindings.text = layoutText result.bindings.nestedLayout := by
  obtain ⟨-, rfl⟩ := GeneratorSettings.generate_eq_ok_iff.mp h
  apply BindingDocument.text_eq_nested
  intro c hc
  exact BindingClass.isClean_layout ((settings.runAccount tree).isReadable_bindings hs ht c hc)
    hs.libraryReference

/-- Steps that close no level from outside, and write clean lines, write the same at any place if
they are taken there and if the text that they write from depth zero is written there as one block.
So a class whose lines are clean stands in a namespace as if it had been laid out there, and the
classes of a run do if names and types can be read on their lines. -/
theorem fragments_nest_exactly :
    (∀ (w : CodeWriter) (steps : List LayoutStep), (∀ step ∈ steps, step.IsClean) →
      ClosesWithin 0 steps →
        (w.step (.block (layoutText steps))).written = (w.run steps).written) ∧
      (∀ document : BindingDocument,
        (∀ c ∈ document.classes, ∀ step ∈ c.layout document.nativeLibrary, step.IsClean) →
          document.text = layoutText document.nestedLayout) ∧
      ∀ (settings : GeneratorSettings) (tree : Declarations) (result : Generated),
        settings.IsReadable → tree.IsReadable → settings.generate tree = .ok result →
          result.bindings.text = layoutText result.bindings.nestedLayout :=
  ⟨fun w _ h hdepth => CodeWriter.written_block_layoutText h hdepth w,
    fun _ h => BindingDocument.text_eq_nested h,
    fun _ _ _ hs ht h => GeneratorSettings.text_eq_nested hs ht h⟩

theorem fragments_nest_exactly_documented :
    let steps : List LayoutStep := [.opening "a (", .block "b;\n\nc;", .blank, .closing ")"]
    (∀ step ∈ steps, step.IsClean) ∧ ClosesWithin 0 steps ∧
      ((CodeWriter.atDepth 1).step (.block (layoutText steps))).written =
        "    a (\n        b;\n\n        c;\n\n    )\n" ∧
      ∃ result, GeneratorSettings.default.generate .documented = .ok result ∧
        result.bindings.classes.length = 2 ∧
        (∀ c ∈ result.bindings.classes, ∀ step ∈ c.layout result.bindings.nativeLibrary,
          step.IsClean) ∧
        result.bindings.text = layoutText result.bindings.nestedLayout := by
  intro steps
  have hsteps : ∀ step ∈ steps, step.IsClean := by decide +kernel
  have hdepth : ClosesWithin 0 steps := by
    simp [steps, LayoutStep.isClosing, LayoutStep.depthAfter]
  have h : GeneratorSettings.default.generate .documented =
      .ok (GeneratorSettings.default.assemble .documented) :=
    GeneratorSettings.generate_eq_ok_iff.mpr ⟨rfl, rfl⟩
  have hs : GeneratorSettings.default.IsReadable := by decide +kernel
  have ht : Declarations.documented.IsReadable := by decide +kernel
  have hclean : ∀ c ∈ (GeneratorSettings.default.assemble .documented).bindings.classes,
      ∀ step ∈ c.layout GeneratorSettings.default.libraryReference, step.IsClean := by
    intro c hc
    exact BindingClass.isClean_layout ((GeneratorSettings.default.runAccount
      .documented).isReadable_bindings hs ht c hc) hs.libraryReference
  have hcount : (GeneratorSettings.default.assemble .documented).bindings.classes.length = 2 := by
    decide +kernel
  obtain ⟨hfragment, -, hrun⟩ := fragments_nest_exactly
  refine ⟨hsteps, hdepth, ?_, GeneratorSettings.default.assemble .documented, h, hcount, hclean,
    hrun _ _ _ hs ht h⟩
  rw [hfragment _ steps hsteps hdepth]
  decide +kernel

end NativeBindings
