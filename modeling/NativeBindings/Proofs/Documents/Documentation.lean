import NativeBindings.Proofs.Documents.Bindings
import Mathlib.Data.List.Forall2

/-!
# Documentation in bindings

Documentation stands on lines of its own that begin with three slashes, also after two rounds of
indentation. Without these lines, bindings are the same whatever the documentation says.
-/

namespace NativeBindings

open Text

def isDocLine (line : List Char) : Bool := "///".toList.isPrefixOf (line.dropWhile (· == ' '))

/-- The lines of a text that are no documentation. Lines are what is between line feeds. -/
def codeLines (text : String) : List (List Char) :=
  (text.toList.splitOn '\n').filter (!isDocLine ·)

theorem isDocLine_slashes (rest : List Char) : isDocLine ("///".toList ++ rest) = true := by
  have hslash : "///".toList = '/' :: "//".toList := by decide
  have hstart : ("///".toList ++ rest).dropWhile (· == ' ') = "///".toList ++ rest := by
    rw [hslash, List.cons_append, List.dropWhile_cons_of_neg (by decide)]
  rw [isDocLine, hstart]
  exact List.isPrefixOf_iff_prefix.mpr (List.prefix_append _ _)

theorem isDocLine_indented (depth : Nat) (content : List Char) :
    isDocLine (CodeWriter.indented depth content) = isDocLine content := by
  unfold CodeWriter.indented
  split
  · rename_i h
    rw [h]
  · have hspaces : ∀ c ∈ List.replicate (4 * depth) ' ', (c == ' ') = true := by
      intro c hc
      rw [List.eq_of_mem_replicate hc]
      decide
    rw [isDocLine, List.dropWhile_append_of_pos hspaces, ← isDocLine]

theorem isDocLine_concat_return (line : List Char) :
    isDocLine (line ++ ['\r']) = isDocLine line := by
  rw [isDocLine, isDocLine, List.dropWhile_append]
  split
  · rename_i hempty
    rw [List.isEmpty_iff.mp hempty]
    decide
  · rw [Bool.eq_iff_iff, List.isPrefixOf_iff_prefix, List.isPrefixOf_iff_prefix]
    constructor
    · intro h
      rcases List.prefix_concat_iff.mp h with heq | h
      · -- The slashes do not end in a carriage return.
        have hlast := congrArg List.getLast? heq
        rw [List.getLast?_concat] at hlast
        exact absurd hlast (by decide)
      · exact h
    · exact fun h => h.trans (List.prefix_append _ _)

theorem isDocLine_withoutReturn (line : List Char) :
    isDocLine (withoutReturn line) = isDocLine line := by
  by_cases h : line.getLast? = some '\r'
  · obtain ⟨front, rfl⟩ := List.getLast?_eq_some_iff.mp h
    rw [withoutReturn_concat, isDocLine_concat_return]
  · rw [withoutReturn_of_getLast? h]

/-- What is written as one line shows among the lines of code: it is no documentation, or it is more
than one line. -/
def isKept (content : List Char) : Bool := !isDocLine content || content.contains '\n'

namespace LayoutStep

/-- The steps move the depth alike, and their lines are the same but for documentation. -/
structure Agree (step step' : LayoutStep) : Prop where
  lineDepth (depth : Nat) : step.lineDepth depth = step'.lineDepth depth
  depthAfter (depth : Nat) : step.depthAfter depth = step'.depthAfter depth
  kept : step.contents.filter isKept = step'.contents.filter isKept

theorem Agree.refl (step : LayoutStep) : Agree step step :=
  ⟨fun _ => rfl, fun _ => rfl, rfl⟩

theorem Agree.block {text text' : String}
    (h : (lines text.toList).filter (!isDocLine ·) = (lines text'.toList).filter (!isDocLine ·)) :
    Agree (block text) (block text') := by
  have hkept : ∀ text : List Char,
      (lines text).filter isKept = (lines text).filter (!isDocLine ·) := by
    intro text
    apply List.filter_congr
    intro line hline
    have hfeed : line.contains '\n' = false := by simpa using notMem_of_mem_lines hline
    rw [isKept, hfeed, Bool.or_false]
  exact ⟨fun _ => rfl, fun _ => rfl, (hkept _).trans (h.trans (hkept _).symm)⟩

end LayoutStep

theorem filter_placedLines {steps steps' : List LayoutStep}
    (h : List.Forall₂ LayoutStep.Agree steps steps') (depth : Nat) :
    (placedLines depth steps).filter (isKept ·.2) =
      (placedLines depth steps').filter (isKept ·.2) := by
  induction h generalizing depth with
  | nil => rfl
  | cons hstep _ ih =>
    have hmap : ∀ (contents : List (List Char)) (lineDepth : Nat),
        (contents.map (lineDepth, ·)).filter (isKept ·.2) =
          (contents.filter isKept).map (lineDepth, ·) := fun _ _ => List.filter_map
    rw [placedLines, placedLines, List.filter_append, List.filter_append, hmap, hmap, hstep.kept,
      hstep.lineDepth, hstep.depthAfter, ih]

private theorem not_isKept {content : List Char} (h : isKept content = false) :
    isDocLine content = true ∧ '\n' ∉ content := by
  simpa [isKept] using h

private theorem filter_flatMap_kept {given : Nat × List Char → List (List Char)}
    (h : ∀ placed, isKept placed.2 = false → (given placed).filter (!isDocLine ·) = [])
    (placed : List (Nat × List Char)) :
    (placed.flatMap given).filter (!isDocLine ·) =
      ((placed.filter (isKept ·.2)).flatMap given).filter (!isDocLine ·) := by
  induction placed with
  | nil => rfl
  | cons head rest ih =>
    rw [List.flatMap_cons, List.filter_append, ih, List.filter_cons]
    cases hkept : isKept head.2 with
    | true => rw [if_pos rfl, List.flatMap_cons, List.filter_append]
    | false => rw [if_neg Bool.false_ne_true, h head hkept, List.nil_append]

section

variable {steps steps' : List LayoutStep}

/-- Steps that agree give the same code, however lines are told apart. -/
private theorem filter_split_layoutText {split : List Char → List (List Char)}
    (given : List Char → List (List Char)) (last : List (List Char))
    (hsplit : ∀ pieces : List (List Char),
      split (pieces.flatMap (· ++ ['\n'])) = pieces.flatMap given ++ last)
    (hdoc : ∀ line, '\n' ∉ line → isDocLine line = true → (given line).filter (!isDocLine ·) = [])
    (h : List.Forall₂ LayoutStep.Agree steps steps') :
    (split (layoutText steps).toList).filter (!isDocLine ·) =
      (split (layoutText steps').toList).filter (!isDocLine ·) := by
  have hkept : ∀ placed : Nat × List Char, isKept placed.2 = false →
      (given (CodeWriter.indented placed.1 placed.2)).filter (!isDocLine ·) = [] := by
    intro placed hkept
    obtain ⟨hline, hfeed⟩ := not_isKept hkept
    exact hdoc _ (CodeWriter.notMem_indented hfeed _) (by rwa [isDocLine_indented])
  simp only [toList_layoutText, hsplit, List.filter_append]
  rw [List.flatMap_map, List.flatMap_map, filter_flatMap_kept hkept, filter_placedLines h,
    ← filter_flatMap_kept hkept]

theorem filter_lines_layoutText (h : List.Forall₂ LayoutStep.Agree steps steps') :
    (lines (layoutText steps).toList).filter (!isDocLine ·) =
      (lines (layoutText steps').toList).filter (!isDocLine ·) := by
  refine filter_split_layoutText (fun line => lines (line ++ ['\n'])) [] ?_ ?_ h
  · intro pieces
    exact (lines_feeds pieces).trans (List.append_nil _).symm
  · intro line hfeed hline
    rw [lines_line hfeed]
    simp [isDocLine_withoutReturn, hline, lines]

theorem codeLines_layoutText (h : List.Forall₂ LayoutStep.Agree steps steps') :
    codeLines (layoutText steps) = codeLines (layoutText steps') := by
  refine filter_split_layoutText (·.splitOn '\n') [[]] splitOn_feeds ?_ h
  intro line hfeed hline
  rw [List.splitOn_eq_singleton hfeed]
  simp [hline]

end

def WrapperMember.undocumented (m : WrapperMember) : WrapperMember := { m with doc := none }

def BoundMember.undocumented (m : BoundMember) : BoundMember :=
  { m with wrapper := m.wrapper.undocumented }

def BindingClass.undocumented (c : BindingClass) : BindingClass :=
  { c with members := c.members.map (·.undocumented) }

def BindingDocument.undocumented (document : BindingDocument) : BindingDocument :=
  { document with classes := document.classes.map (·.undocumented) }

theorem isDocLine_of_mem_commentLines {doc : Option String} {line : List Char}
    (h : line ∈ commentLines doc) : isDocLine line = true := by
  have hmark : "/// ".toList = "///".toList ++ [' '] := by decide
  rcases List.mem_cons.mp h with rfl | h
  · exact isDocLine_slashes " <summary>".toList
  · rcases List.mem_append.mp h with h | h
    · obtain ⟨described, -, rfl⟩ := List.mem_map.mp h
      rw [hmark, List.append_assoc]
      exact isDocLine_slashes _
    · rw [List.mem_singleton.mp h]
      exact isDocLine_slashes " </summary>".toList

theorem WrapperMember.filter_lines_text (m : WrapperMember) :
    (lines m.text.toList).filter (!isDocLine ·) =
      (lines m.signature.toList).filter (!isDocLine ·) := by
  have hcomment : ((commentLines m.doc).map withoutReturn).filter (!isDocLine ·) = [] := by
    rw [List.filter_eq_nil_iff]
    intro line hline
    obtain ⟨comment, hc, rfl⟩ := List.mem_map.mp hline
    rw [isDocLine_withoutReturn, isDocLine_of_mem_commentLines hc]
    decide
  rw [text, String.toList_append, toList_summaryComment,
    lines_flatMap (fun _ => notMem_of_mem_commentLines), List.filter_append, hcomment,
    List.nil_append]

private theorem agree_refl (steps : List LayoutStep) :
    List.Forall₂ LayoutStep.Agree steps steps :=
  List.forall₂_same.mpr fun step _ => .refl step

namespace BindingClass

theorem agree_members (members : List BoundMember) :
    List.Forall₂ LayoutStep.Agree
      (members.flatMap fun m => [.block m.wrapper.text, .blank])
      ((members.map (·.undocumented)).flatMap fun m => [.block m.wrapper.text, .blank]) := by
  induction members with
  | nil => exact .nil
  | cons m rest ih =>
    have htext : LayoutStep.Agree (.block m.wrapper.text) (.block m.undocumented.wrapper.text) := by
      apply LayoutStep.Agree.block
      rw [m.wrapper.filter_lines_text, m.undocumented.wrapper.filter_lines_text]
      rfl
    exact .cons htext (.cons (.refl _) ih)

theorem importLayout_undocumented (c : BindingClass) (nativeLibrary : String) :
    c.undocumented.importLayout nativeLibrary = c.importLayout nativeLibrary := by
  simp only [importLayout, undocumented, List.map_map]
  rfl

theorem agree_layout (c : BindingClass) (nativeLibrary : String) :
    List.Forall₂ LayoutStep.Agree (c.layout nativeLibrary)
      (c.undocumented.layout nativeLibrary) := by
  rw [layout, layout, importLayout_undocumented]
  refine List.rel_append (List.rel_append (List.rel_append (List.rel_append ?_ ?_) ?_) ?_) ?_
  case refine_2 => exact agree_members c.members
  all_goals exact agree_refl _

end BindingClass

private theorem agree_intercalate {pieces pieces' : List (List LayoutStep)}
    (h : List.Forall₂ (List.Forall₂ LayoutStep.Agree) pieces pieces') :
    List.Forall₂ LayoutStep.Agree (List.intercalate [.blank] pieces)
      (List.intercalate [.blank] pieces') := by
  induction h with
  | nil => exact agree_refl _
  | cons hpiece hrest ih =>
    cases hrest with
    | nil => simpa only [List.intercalate_singleton] using hpiece
    | cons _ _ =>
      rw [List.intercalate_cons_cons, List.intercalate_cons_cons]
      exact List.rel_append (List.rel_append hpiece (agree_refl _)) ih

/-- Documentation makes no difference to the code in bindings. -/
theorem BindingDocument.codeLines_text (document : BindingDocument) :
    codeLines document.text = codeLines document.undocumented.text := by
  have hclass : ∀ c : BindingClass, LayoutStep.Agree (.block (c.text document.nativeLibrary))
      (.block (c.undocumented.text document.nativeLibrary)) := by
    intro c
    exact .block (filter_lines_layoutText (c.agree_layout document.nativeLibrary))
  apply codeLines_layoutText
  refine List.rel_append (List.rel_append (agree_refl _) (agree_intercalate ?_)) (agree_refl _)
  rw [undocumented, List.forall₂_map_left_iff, List.map_map, List.forall₂_map_right_iff,
    List.forall₂_same]
  intro c _
  exact .cons (hclass c) .nil

end NativeBindings
