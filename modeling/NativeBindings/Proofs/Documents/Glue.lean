import NativeBindings.Proofs.Documents.Reading

/-!
# Exports in glue

Every function is defined on one line of glue, and these are the only lines that define exports.
They are read in the order of the classes, with the destructor of each class last.
-/

namespace NativeBindings

open Text

/-- The function can be read on its line. -/
structure GlueFunction.IsReadable (function : GlueFunction) : Prop where
  exportName : ConsistsOf IsSolid function.exportName
  returnType : ConsistsOf IsPlain function.returnType
  text : ConsistsOf IsInLine function.text

-- Stated of variables, since literals would be looked into as texts.
private theorem toList_append_six (a b c d e f : String) :
    (a ++ (b ++ (c ++ (d ++ (e ++ f))))).toList =
      a.toList ++ b.toList ++ (c.toList ++ (d.toList ++ (e.toList ++ f.toList))) := by
  simp only [String.toList_append, List.append_assoc]

private theorem GlueFunction.exists_text_eq (function : GlueFunction) :
    ∃ back, function.text = "EXPORTS(" ++ (function.returnType ++
      (") " ++ (function.exportName ++ ("(" ++ (back ++ " \x7d"))))) := by
  refine ⟨", ".intercalate (function.params.map (·.text)) ++ ") \x7b " ++ function.statement, ?_⟩
  unfold text
  generalize ", ".intercalate (function.params.map (·.text)) = params
  generalize function.statement = statement
  simp only [String.append_assoc]

theorem GlueFunction.exportOn?_text {function : GlueFunction} (h : function.IsReadable) :
    exportOn? (withoutReturn function.text.toList) = some function.exportName := by
  have hname : '(' ∉ function.exportName.toList := fun hm => (h.exportName '(' hm).2.1 rfl
  have hreturn : ')' ∉ exportMark ++ function.returnType.toList := by
    rw [List.mem_append, not_or]
    exact ⟨by decide, fun hm => (h.returnType ')' hm).2.2 rfl⟩
  obtain ⟨back, htext⟩ := function.exists_text_eq
  have hline : function.text.toList = exportMark ++ function.returnType.toList ++
      (") ".toList ++ (function.exportName.toList ++
        ("(".toList ++ (back ++ " \x7d").toList))) := by
    rw [htext]
    exact toList_append_six _ _ _ _ _ _
  have hlast : function.text.toList.getLast? = some '\x7d' := by
    have hclose : " \x7d".toList.getLast? = some '\x7d' := by decide
    simp only [hline, String.toList_append, List.getLast?_append, hclose, Option.some_or]
  have hmark : exportMark <+: function.text.toList := by
    rw [hline, List.append_assoc]
    exact List.prefix_append exportMark _
  rw [withoutReturn_of_getLast? (by rw [hlast]; decide), exportOn?, if_pos hmark, hline,
    afterFirst?_append (c := ')') rfl hreturn, Option.bind_some, beforeParenthesis?_append hname,
    Option.map_some, String.ofList_toList]

structure GlueClass.IsReadable (c : GlueClass) : Prop where
  qualifiedName : ConsistsOf IsInLine c.qualifiedName
  functions : ∀ function ∈ c.functions, function.IsReadable
  dispose : c.dispose.IsReadable

namespace GlueDocument

theorem exports_opening (headerInclude : String) :
    (opening headerInclude).flatMap (·.exports) = [] := by
  have hinclude : (LayoutStep.line ("#include \"" ++ headerInclude ++ "\"")).exports = [] := by
    apply LayoutStep.exports_line_eq_nil
    rw [String.append_assoc]
    exact not_isPrefix_of_isPrefix (isPrefix_toList_append _ _) (by decide) (by decide)
  rw [List.flatMap_eq_nil_iff, opening]
  simp only [List.forall_mem_cons, hinclude]
  decide +kernel

theorem exports_classSection {c : GlueClass} (h : c.IsReadable) :
    (classSection c).flatMap (·.exports) = c.exportNames := by
  have hcomment : (LayoutStep.line ("/* " ++ c.qualifiedName ++ " */")).exports = [] := by
    apply LayoutStep.exports_line_eq_nil
    rw [String.append_assoc]
    exact not_isPrefix_of_isPrefix (isPrefix_toList_append _ _) (by decide) (by decide)
  have hfunction : ∀ function : GlueFunction, function.IsReadable →
      (LayoutStep.line function.text).exports = [function.exportName] := fun function hf =>
    List.filterMap_cons_some (GlueFunction.exportOn?_text hf)
  have hfunctions : c.functions.flatMap (fun function => (LayoutStep.line function.text).exports) =
      c.functions.map (·.exportName) := by
    rw [List.map_eq_flatMap]
    exact List.flatMap_congr fun function hf => hfunction function (h.functions function hf)
  have hblank : LayoutStep.blank.exports = [] := by decide
  simp only [classSection, GlueClass.exportNames, List.flatMap_append, List.flatMap_map,
    List.flatMap_cons, List.flatMap_nil, hblank, hcomment, hfunctions, hfunction _ h.dispose,
    List.nil_append, List.append_nil]

theorem forall_mem_layout {document : GlueDocument}
    (hheader : ConsistsOf IsInLine document.headerInclude)
    (h : ∀ c ∈ document.classes, c.IsReadable) :
    ∀ step ∈ document.layout, step.IsWhole ∧ step.IsFlat := by
  have hsteps : ∀ text, ConsistsOf IsInLine text →
      (LayoutStep.line text).IsWhole ∧ (LayoutStep.line text).IsFlat := fun text ht =>
    ⟨LayoutStep.isWhole_line.mpr ht, trivial⟩
  have hblank : LayoutStep.blank.IsWhole ∧ LayoutStep.blank.IsFlat :=
    ⟨LayoutStep.isWhole_blank, trivial⟩
  rw [layout, List.forall_mem_append]
  constructor
  · have hinclude : ConsistsOf IsInLine ("#include \"" ++ document.headerInclude ++ "\"") := by
      rw [consistsOf_append, consistsOf_append]
      exact ⟨⟨by decide, hheader⟩, by decide⟩
    simp only [opening, List.forall_mem_cons]
    exact ⟨hsteps _ (by decide), hsteps _ hinclude, hblank, hsteps _ (by decide +kernel),
      hsteps _ (by decide +kernel), hsteps _ (by decide), hsteps _ (by decide +kernel),
      hsteps _ (by decide), fun _ hm => absurd hm List.not_mem_nil⟩
  · intro step hstep
    obtain ⟨c, hc, hstep⟩ := List.mem_flatMap.mp hstep
    have hreadable := h c hc
    simp only [classSection, List.mem_append, List.mem_cons, List.mem_map, List.not_mem_nil,
      or_false] at hstep
    rcases hstep with ((rfl | rfl) | ⟨function, hf, rfl⟩) | rfl
    · exact hblank
    · apply hsteps
      rw [consistsOf_append, consistsOf_append]
      exact ⟨⟨by decide, hreadable.qualifiedName⟩, by decide⟩
    · exact hsteps _ (hreadable.functions function hf).text
    · exact hsteps _ hreadable.dispose.text

/-- Reading glue gives the exports of its classes. -/
theorem exportsIn_text {document : GlueDocument}
    (hheader : ConsistsOf IsInLine document.headerInclude)
    (h : ∀ c ∈ document.classes, c.IsReadable) :
    exportsIn document.text = document.classes.flatMap (·.exportNames) := by
  have hlayout := forall_mem_layout hheader h
  rw [text, exportsIn_layoutText (fun step hs => (hlayout step hs).1)
    fun step hs => (hlayout step hs).2, layout, List.flatMap_append, exports_opening,
    List.nil_append, List.flatMap_assoc]
  exact List.flatMap_congr fun c hc => exports_classSection (h c hc)

end GlueDocument

end NativeBindings
