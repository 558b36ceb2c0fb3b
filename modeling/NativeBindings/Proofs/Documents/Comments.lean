import NativeBindings.Proofs.Documents.Documentation
import NativeBindings.Proofs.Documents.Nesting
import NativeBindings.Proofs.Text.HostLines

/-!
# Comments as C# reads them

Documentation is told apart into lines at line feeds only. Every other character that ends a line in
C# stays within a comment line, and what follows it there stands outside of the comment.
-/

namespace NativeBindings

open Text

/-- The pieces stand in a list one after the other, each as a whole. -/
inductive InOrder {α : Type} : List (List α) → List α → Prop
  | nil (rest : List α) : InOrder [] rest
  | cons (front : List α) {piece : List α} {pieces : List (List α)} {back : List α}
      (h : InOrder pieces back) : InOrder (piece :: pieces) (front ++ (piece ++ back))

namespace InOrder

variable {α β : Type} {pieces more : List (List α)} {text other : List α}

theorem append_left (front : List α) (h : InOrder pieces text) :
    InOrder pieces (front ++ text) := by
  cases h with
  | nil => exact .nil _
  | cons before h =>
    rw [← List.append_assoc]
    exact .cons _ h

theorem append (h : InOrder pieces text) (h' : InOrder more other) :
    InOrder (pieces ++ more) (text ++ other) := by
  induction h with
  | nil rest => exact h'.append_left rest
  | cons front _ ih =>
    rw [List.append_assoc, List.append_assoc]
    exact .cons front ih

theorem append_right (h : InOrder pieces text) (back : List α) : InOrder pieces (text ++ back) := by
  have hnone := h.append (.nil back)
  rwa [List.append_nil] at hnone

theorem mem {piece : List α} {x : α} (h : InOrder pieces text) (hp : piece ∈ pieces)
    (hx : x ∈ piece) : x ∈ text := by
  induction h with
  | nil rest => exact absurd hp List.not_mem_nil
  | cons front _ ih =>
    rw [List.mem_append, List.mem_append]
    rcases List.mem_cons.mp hp with rfl | hp
    · exact .inr (.inl hx)
    · exact .inr (.inr (ih hp))

theorem flatMap (h : InOrder pieces text) (f : α → List β) :
    InOrder (pieces.map (·.flatMap f)) (text.flatMap f) := by
  induction h with
  | nil rest => exact .nil _
  | cons front _ ih =>
    rw [List.flatMap_append, List.flatMap_append]
    exact .cons _ ih

theorem map (h : InOrder pieces text) (f : α → β) :
    InOrder (pieces.map (·.map f)) (text.map f) := by
  have hsingle := h.flatMap fun x => [f x]
  simpa only [← List.map_eq_flatMap] using hsingle

end InOrder

/-- What C# reads on lines of its own behind the beginning of a comment line. -/
def brokenOff (doc : Option String) : List (List Char) :=
  (describedLines doc).flatMap fun line => (hostLines (trimEnd line)).tail

/-- A summary comment at a depth. -/
def commentAt (depth : Nat) (doc : Option String) : List Char :=
  (lines (summaryComment doc).toList).flatMap (CodeWriter.indented depth · ++ ['\n'])

theorem commentAt_eq (depth : Nat) (doc : Option String) :
    commentAt depth doc =
      ((commentLines doc).map (CodeWriter.indented depth)).flatMap (· ++ ['\n']) := by
  rw [commentAt, lines_summaryComment, List.flatMap_map]

theorem commentAt_zero (doc : Option String) : commentAt 0 doc = (summaryComment doc).toList := by
  rw [commentAt_eq, List.map_congr_left fun line _ => CodeWriter.indented_zero line, List.map_id',
    toList_summaryComment]

def commentContents (doc : Option String) : List (List Char) :=
  "<summary>".toList :: ((describedLines doc).map trimEnd ++ ["</summary>".toList])

theorem commentLines_eq (doc : Option String) :
    commentLines doc = (commentContents doc).map ("/// ".toList ++ ·) := by
  have hfirst : "/// <summary>".toList = "/// ".toList ++ "<summary>".toList := by decide
  have hlast : "/// </summary>".toList = "/// ".toList ++ "</summary>".toList := by decide
  simp only [commentLines, commentContents, List.map_cons, List.map_append, List.map_map,
    List.map_nil, hfirst, hlast]
  rfl

theorem isHostLineEnd_getLast_commentContents {doc : Option String} {content : List Char}
    (h : content ∈ commentContents doc) : ∀ c ∈ content.getLast?, isHostLineEnd c = false := by
  have hfirst : "<summary>".toList.getLast? = some '>' := by decide
  have hlast : "</summary>".toList.getLast? = some '>' := by decide
  intro c hc
  rcases List.mem_cons.mp h with rfl | h
  · cases hfirst.symm.trans hc
    decide
  · rcases List.mem_append.mp h with h | h
    · obtain ⟨line, -, rfl⟩ := List.mem_map.mp h
      have hblank := isBlank_getLast_trimEnd c hc
      by_contra hend
      rw [isBlank_of_isHostLineEnd (Bool.not_eq_false _ ▸ hend)] at hblank
      cases hblank
    · rw [List.mem_singleton.mp h] at hc
      cases hlast.symm.trans hc
      decide

theorem brokenOff_eq (doc : Option String) :
    brokenOff doc = (commentContents doc).flatMap fun content => (hostLines content).tail := by
  have hfirst : (hostLines "<summary>".toList).tail = [] := by decide
  have hlast : (hostLines "</summary>".toList).tail = [] := by decide
  rw [commentContents, List.flatMap_cons, List.flatMap_append, List.flatMap_map,
    List.flatMap_singleton, hfirst, hlast, List.nil_append, List.append_nil, brokenOff]

/-- C# reads a comment line as its beginning and what is broken off. -/
theorem hostLines_commentLine {content : List Char}
    (h : ∀ c ∈ content.getLast?, isHostLineEnd c = false) (depth : Nat) :
    ∃ first, hostLines (CodeWriter.indented depth ("/// ".toList ++ content) ++ ['\n']) =
      CodeWriter.indented depth ("/// ".toList ++ first) :: (hostLines content).tail := by
  have hindented : ∀ rest, CodeWriter.indented depth ("/// ".toList ++ rest) =
      List.replicate (4 * depth) ' ' ++ "/// ".toList ++ rest := by
    intro rest
    rw [CodeWriter.indented, if_neg, List.append_assoc]
    rw [List.append_eq_nil_iff, not_and]
    exact fun hmark => absurd hmark (by decide)
  have hopen : ∀ c ∈ List.replicate (4 * depth) ' ' ++ "/// ".toList, isHostLineEnd c = false := by
    have hmark : ConsistsOf (isHostLineEnd · = false) "/// " := by decide
    rw [List.forall_mem_append]
    refine ⟨fun c hc => ?_, hmark⟩
    rw [List.eq_of_mem_replicate hc]
    decide
  have htail : (hostLines (content ++ ['\n'])).tail = (hostLines content).tail := by
    by_cases hempty : content = []
    · rw [hempty]
      rfl
    · rw [hostLines_concat_feed h hempty]
  refine ⟨(hostLines (content ++ ['\n'])).headD [], ?_⟩
  rw [hindented, hindented, List.append_assoc, hostLines_append hopen (by simp), htail]

theorem forall_hostLines_commentAt {p : List Char → Prop} {depth : Nat}
    (hp : ∀ content, p (CodeWriter.indented depth ("/// ".toList ++ content)))
    (doc : Option String) :
    (∀ line ∈ hostLines (commentAt depth doc), p line) ↔ ∀ line ∈ brokenOff doc, p line := by
  have hline : ∀ content ∈ commentContents doc,
      (∀ line ∈ hostLines (CodeWriter.indented depth ("/// ".toList ++ content) ++ ['\n']),
        p line) ↔ ∀ line ∈ (hostLines content).tail, p line := by
    intro content hc
    obtain ⟨first, hread⟩ :=
      hostLines_commentLine (isHostLineEnd_getLast_commentContents hc) depth
    rw [hread, List.forall_mem_cons]
    exact and_iff_right (hp first)
  rw [commentAt_eq, commentLines_eq, hostLines_feeds, brokenOff_eq, List.map_map, List.flatMap_map,
    List.forall_mem_flatMap, List.forall_mem_flatMap]
  exact forall₂_congr hline

theorem brokenOff_eq_nil_iff {doc : Option String} :
    brokenOff doc = [] ↔
      ∀ line ∈ describedLines doc, ∀ c ∈ trimEnd line, isHostLineEnd c = false := by
  have hline : ∀ line ∈ describedLines doc, (hostLines (trimEnd line)).tail = [] ↔
      ∀ c ∈ trimEnd line, isHostLineEnd c = false := by
    intro line hl
    apply tail_hostLines_eq_nil_iff
    have hcontent : trimEnd line ∈ commentContents doc :=
      List.mem_cons_of_mem _ (List.mem_append_left _ (List.mem_map_of_mem hl))
    exact isHostLineEnd_getLast_commentContents hcontent
  rw [brokenOff, List.flatMap_eq_nil_iff]
  exact forall₂_congr hline

def BindingClass.handleDocs (c : BindingClass) : List (Option String) :=
  [some "Pointer to the underlying native object",
    some ("Create " ++ c.wrapperName ++ " from a native pointer")]

/-- The documentation in a class, in order. -/
def BindingClass.docs (c : BindingClass) : List (Option String) :=
  c.handleDocs ++ c.members.map (·.wrapper.doc)

theorem hostLines_layoutText (steps : List LayoutStep) :
    hostLines (layoutText steps).toList =
      (writtenLines 0 steps).flatMap fun line => hostLines (line ++ ['\n']) := by
  rw [toList_layoutText, hostLines_feeds]
  rfl

theorem hostLines_commentAt (depth : Nat) (doc : Option String) :
    hostLines (commentAt depth doc) =
      ((commentLines doc).map (CodeWriter.indented depth)).flatMap fun line =>
        hostLines (line ++ ['\n']) := by
  rw [commentAt_eq, hostLines_feeds]

namespace BindingClass

theorem inOrder_handleLayout (c : BindingClass) :
    InOrder (c.handleDocs.map commentLines) (c.handleLayout.flatMap (·.contents)) := by
  simp only [handleDocs, handleLayout, LayoutStep.contents, lines_summaryComment, List.map_cons,
    List.map_nil, List.flatMap_cons]
  exact .cons [] (((InOrder.cons [] (.nil _)).append_left _).append_left _)

theorem inOrder_members (members : List BoundMember) :
    InOrder (members.map fun m => commentLines m.wrapper.doc)
      ((members.flatMap fun m => [LayoutStep.block m.wrapper.text, LayoutStep.blank]).flatMap
        (·.contents)) := by
  induction members with
  | nil => exact .nil _
  | cons m rest ih =>
    have htext : lines m.wrapper.text.toList =
        commentLines m.wrapper.doc ++ lines m.wrapper.signature.toList := by
      rw [WrapperMember.text, String.toList_append, lines_summaryComment_append]
    rw [List.flatMap_cons, List.flatMap_append, List.flatMap_cons, LayoutStep.contents, htext,
      List.append_assoc, List.append_assoc]
    exact .cons [] ((ih.append_left _).append_left _)

theorem inOrder_writtenLines (c : BindingClass) (nativeLibrary : String) :
    InOrder (c.docs.map fun doc => (commentLines doc).map (CodeWriter.indented 1))
      (writtenLines 0 (c.layout nativeLibrary)) := by
  have hhandle := c.inOrder_handleLayout.map (CodeWriter.indented 1)
  have hmembers := (inOrder_members c.members).map (CodeWriter.indented 1)
  rw [List.map_map] at hhandle hmembers
  simp only [layout, writtenLines_append, endDepth_append, endDepth_cons, endDepth_nil,
    LayoutStep.depthAfter, endDepth_of_flat c.isFlat_handleLayout,
    writtenLines_of_flat c.isFlat_handleLayout, writtenLines_of_flat c.isFlat_members]
  rw [docs, List.map_append, List.map_map]
  refine .append_right (.append_right (.append_right (.append (.append_left _ hhandle) hmembers) _)
    _) _

end BindingClass

theorem flatMap_lines_commentLines (depth : Nat) (doc : Option String) :
    ((commentLines doc).map (CodeWriter.indented depth)).flatMap
        (fun line => lines (line ++ ['\n'])) =
      (commentLines doc).map (CodeWriter.indented depth) := by
  have hread : ∀ line ∈ (commentLines doc).map (CodeWriter.indented depth),
      lines (line ++ ['\n']) = [line] := by
    intro line hline
    obtain ⟨comment, hc, rfl⟩ := List.mem_map.mp hline
    rw [lines_line (CodeWriter.notMem_indented (notMem_of_mem_commentLines hc) depth),
      withoutReturn_of_getLast?
        (CodeWriter.getLast?_indented (getLast?_of_mem_commentLines hc) depth), lines]
  rw [List.flatMap_congr hread, List.flatMap_singleton']

theorem BindingClass.inOrder_lines (c : BindingClass) (nativeLibrary : String) :
    InOrder (c.docs.map fun doc => (commentLines doc).map (CodeWriter.indented 1))
      (lines (c.text nativeLibrary).toList) := by
  -- Other lines of the class may be read as several, comment lines are read as they are.
  have hread := (c.inOrder_writtenLines nativeLibrary).flatMap fun line => lines (line ++ ['\n'])
  rw [List.map_map] at hread
  rw [text, lines_layoutText_eq_flatMap]
  simpa only [Function.comp_def, flatMap_lines_commentLines] using hread

theorem inOrder_classes (classes : List BindingClass) (nativeLibrary : String) :
    InOrder ((classes.flatMap (·.docs)).map fun doc =>
        (commentLines doc).map (CodeWriter.indented 1))
      ((List.intercalate [.blank] (classes.map fun c =>
        [LayoutStep.block (c.text nativeLibrary)])).flatMap (·.contents)) := by
  induction classes with
  | nil => exact .nil _
  | cons first rest ih =>
    have hfirst := first.inOrder_lines nativeLibrary
    cases rest with
    | nil =>
      rw [List.map_singleton, List.intercalate_singleton, List.flatMap_singleton,
        List.flatMap_singleton]
      exact hfirst
    | cons second others =>
      rw [List.flatMap_cons, List.map_append, List.map_cons, List.map_cons,
        List.intercalate_cons_cons, List.append_assoc, List.flatMap_append, List.flatMap_append,
        List.flatMap_singleton]
      exact hfirst.append (ih.append_left _)

theorem BindingDocument.inOrder_writtenLines (document : BindingDocument) :
    InOrder ((document.classes.flatMap (·.docs)).map fun doc =>
        (commentLines doc).map (CodeWriter.indented 2)) (writtenLines 0 document.layout) := by
  have hflat := document.isFlat_of_mem_classes
  have hclasses := (inOrder_classes document.classes document.nativeLibrary).map
    (CodeWriter.indented 1)
  rw [List.map_map] at hclasses
  have hdepth : endDepth 0 (opening document.namespaceName) = 1 := by
    simp [opening, LayoutStep.depthAfter]
  rw [layout, writtenLines_append, writtenLines_append, hdepth, writtenLines_of_flat hflat]
  refine .append_right (.append_left _ ?_) _
  simpa only [Function.comp_def, List.map_map, CodeWriter.indented_indented] using hclasses

theorem BindingClass.inOrder_hostLines (c : BindingClass) (nativeLibrary : String) :
    InOrder (c.docs.map fun doc => hostLines (commentAt 1 doc))
      (hostLines (c.text nativeLibrary).toList) := by
  have hread := (c.inOrder_writtenLines nativeLibrary).flatMap
    fun line => hostLines (line ++ ['\n'])
  rw [List.map_map] at hread
  rw [text, hostLines_layoutText]
  simpa only [Function.comp_def, ← hostLines_commentAt] using hread

theorem BindingDocument.inOrder_hostLines (document : BindingDocument) :
    InOrder ((document.classes.flatMap (·.docs)).map fun doc => hostLines (commentAt 2 doc))
      (hostLines document.text.toList) := by
  have hread := document.inOrder_writtenLines.flatMap fun line => hostLines (line ++ ['\n'])
  rw [List.map_map] at hread
  rw [text, hostLines_layoutText]
  simpa only [Function.comp_def, ← hostLines_commentAt] using hread

/-- Of a summary comment, C# reads lines that begin with three slashes, and what is broken off them.
That is nothing unless a character within a line of the documentation ends a line in C#. In a class
and in the document, the comment of each member stands in order, one and two levels deep. -/
theorem comments_contained_iff (doc : Option String) (c : BindingClass) (nativeLibrary : String)
    (document : BindingDocument) :
    ((∀ line ∈ hostLines (summaryComment doc).toList, "///".toList <+: line) ↔
        ∀ line ∈ brokenOff doc, "///".toList <+: line) ∧
      (∀ depth, (∀ line ∈ hostLines (commentAt depth doc), isDocLine line = true) ↔
        ∀ line ∈ brokenOff doc, isDocLine line = true) ∧
      (brokenOff doc = [] ↔
        ∀ line ∈ describedLines doc, ∀ c ∈ trimEnd line, isHostLineEnd c = false) ∧
      InOrder (c.docs.map fun doc => hostLines (commentAt 1 doc))
        (hostLines (c.text nativeLibrary).toList) ∧
      InOrder ((document.classes.flatMap (·.docs)).map fun doc => hostLines (commentAt 2 doc))
        (hostLines document.text.toList) := by
  have hmark : "/// ".toList = "///".toList ++ [' '] := by decide
  refine ⟨?_, ?_, brokenOff_eq_nil_iff, c.inOrder_hostLines nativeLibrary,
    document.inOrder_hostLines⟩
  · rw [← commentAt_zero]
    apply forall_hostLines_commentAt
    intro content
    rw [CodeWriter.indented_zero, hmark, List.append_assoc]
    exact List.prefix_append _ _
  · intro depth
    apply forall_hostLines_commentAt
    intro content
    rw [isDocLine_indented, hmark, List.append_assoc]
    exact isDocLine_slashes _

/-- The ends of lines between the described lines and at the end go with the line feeds or as blanks
at the end of a line. -/
theorem comments_contained_iff_trimmed :
    let doc := some "Sum of all\r\nitems \u2028\n"
    (∀ line ∈ describedLines doc, ∀ c ∈ trimEnd line, isHostLineEnd c = false) ∧
      (∀ line ∈ hostLines (summaryComment doc).toList, "///".toList <+: line) ∧
      ∀ line ∈ hostLines (commentAt 2 doc), isDocLine line = true := by
  intro doc
  obtain ⟨hplain, hdeep, hnone, -, -⟩ := comments_contained_iff doc default "" default
  have hdoc : brokenOff doc = [] := by decide +kernel
  refine ⟨hnone.mp hdoc, hplain.mpr ?_, (hdeep 2).mpr ?_⟩
  · simp [hdoc]
  · simp [hdoc]

def Declarations.summing : Declarations :=
  ⟨none, [(NativeClass.ofName "List").addFunction
    { MemberFunction.method "sum" ⟨"int32_t"⟩ with doc := some "Sum\rof all" }]⟩

/-- What follows a character that ends a line in C# is no comment there. -/
theorem documentation_broken_off :
    (∀ doc ∈ ["Sum\rof all", "Sum\u0085of all", "Sum\u2028of all", "Sum\u2029of all"],
      ¬ ∀ line ∈ hostLines (summaryComment (some doc)).toList, "///".toList <+: line) ∧
      ∃ result, GeneratorSettings.default.generate .summing = .ok result ∧
        "of all".toList ∈ hostLines result.bindings.text.toList ∧
        isDocLine "of all".toList = false := by
  have hbroken : "of all".toList ∈ hostLines (commentAt 2 (some "Sum\rof all")) := by
    decide +kernel
  refine ⟨by decide +kernel, GeneratorSettings.default.assemble .summing,
    GeneratorSettings.generate_eq_ok_iff.mpr ⟨rfl, rfl⟩, ?_, by decide⟩
  refine (BindingDocument.inOrder_hostLines _).mem (List.mem_map_of_mem ?_) hbroken
  decide +kernel

end NativeBindings
