import NativeBindings.Output.Layout
import NativeBindings.Proofs.Text.Characters
import NativeBindings.Proofs.Text.Pieces

/-!
# Lines of a layout

A text that is laid out by steps has the lines of these steps, each with its indentation, as long as
every line that is written is one line. Trimmed, they do not depend on how deep they stand.
-/

namespace NativeBindings

open Text

namespace LayoutStep

/-- The lines that a step writes, without their indentation. -/
def contents : LayoutStep → List (List Char)
  | .line text | .opening text | .closing text => [text.toList]
  | .blank => [[]]
  | .block text => lines text.toList

def lineDepth (depth : Nat) : LayoutStep → Nat
  | .closing _ => depth - 1
  | _ => depth

def depthAfter (depth : Nat) : LayoutStep → Nat
  | .opening _ => depth + 1
  | .closing _ => depth - 1
  | _ => depth

/-- What is written as one line is one line. -/
def IsWhole (step : LayoutStep) : Prop := ∀ content ∈ step.contents, '\n' ∉ content

@[simp] theorem isWhole_line {text : String} : (line text).IsWhole ↔ ConsistsOf IsInLine text := by
  simp [IsWhole, contents, consistsOf_isInLine]

@[simp] theorem isWhole_blank : blank.IsWhole := by simp [IsWhole, contents]

@[simp] theorem isWhole_block (text : String) : (block text).IsWhole :=
  fun _ hm => notMem_of_mem_lines hm

/-- The step leaves the depth as it is. -/
def IsFlat : LayoutStep → Prop
  | .opening _ | .closing _ => False
  | _ => True

theorem IsFlat.lineDepth_eq {step : LayoutStep} (h : step.IsFlat) (depth : Nat) :
    step.lineDepth depth = depth := by
  cases step with
  | opening => cases h
  | closing => cases h
  | line | blank | block => rfl

theorem IsFlat.depthAfter_eq {step : LayoutStep} (h : step.IsFlat) (depth : Nat) :
    step.depthAfter depth = depth := by
  cases step with
  | opening => cases h
  | closing => cases h
  | line | blank | block => rfl

end LayoutStep

/-- The lines that steps write, each with its depth. -/
def placedLines : Nat → List LayoutStep → List (Nat × List Char)
  | _, [] => []
  | depth, step :: rest =>
    step.contents.map (step.lineDepth depth, ·) ++ placedLines (step.depthAfter depth) rest

theorem placedLines_snd (depth : Nat) (steps : List LayoutStep) :
    (placedLines depth steps).map (·.2) = steps.flatMap (·.contents) := by
  induction steps generalizing depth with
  | nil => rfl
  | cons step rest ih =>
    rw [placedLines, List.map_append, List.map_map, ih, List.flatMap_cons]
    exact congrArg (· ++ _) (List.map_id _)

theorem placedLines_of_flat {steps : List LayoutStep} (h : ∀ step ∈ steps, step.IsFlat)
    (depth : Nat) :
    placedLines depth steps = (steps.flatMap (·.contents)).map (depth, ·) := by
  induction steps with
  | nil => rfl
  | cons step rest ih =>
    have hstep := h step List.mem_cons_self
    have hrest := ih fun other hm => h other (List.mem_cons_of_mem step hm)
    rw [placedLines, hstep.lineDepth_eq, hstep.depthAfter_eq, hrest, List.flatMap_cons,
      List.map_append]

namespace CodeWriter

def indented (depth : Nat) (content : List Char) : List Char :=
  if content = [] then [] else List.replicate (4 * depth) ' ' ++ content

theorem toList_lineAt (depth : Nat) (text : String) :
    (lineAt depth text).toList = indented depth text.toList ++ ['\n'] := by
  unfold lineAt indented
  by_cases h : text = ""
  · subst h
    simp
  · have hempty : text.isEmpty = false := by simpa using h
    have hlist : text.toList ≠ [] := by simpa using h
    rw [hempty, if_neg hlist]
    simp [indentation]

theorem indented_zero (content : List Char) : indented 0 content = content := by
  rw [indented]
  split
  · rename_i h
    exact h.symm
  · rfl

theorem trim_indented (depth : Nat) (content : List Char) :
    trim (indented depth content) = trim content := by
  rw [indented]
  split
  · rename_i h
    rw [h]
  · apply trim_append_left
    intro c hc
    rw [List.eq_of_mem_replicate hc]
    decide

theorem notMem_indented {content : List Char} (h : '\n' ∉ content) (depth : Nat) :
    '\n' ∉ indented depth content := by
  rw [indented]
  split
  · exact List.not_mem_nil
  · rw [List.mem_append, not_or]
    refine ⟨fun hm => ?_, h⟩
    cases List.eq_of_mem_replicate hm

theorem writeLine_written (w : CodeWriter) (text : String) :
    (w.writeLine text).written.toList =
      w.written.toList ++ (indented w.depth text.toList ++ ['\n']) := by
  rw [writeLine, String.toList_append, toList_lineAt]

private theorem foldl_writeLine (w : CodeWriter) (contents : List (List Char)) :
    (contents.foldl (fun w line => w.writeLine (String.ofList line)) w).depth = w.depth ∧
      (contents.foldl (fun w line => w.writeLine (String.ofList line)) w).written.toList =
        w.written.toList ++ contents.flatMap fun content => indented w.depth content ++ ['\n'] := by
  induction contents generalizing w with
  | nil => simp
  | cons content contents ih =>
    obtain ⟨hdepth, hwritten⟩ := ih (w.writeLine (String.ofList content))
    refine ⟨hdepth, ?_⟩
    rw [List.foldl_cons, hwritten, writeLine_written, String.toList_ofList, List.flatMap_cons,
      List.append_assoc]
    rfl

/-- One step appends its lines. -/
theorem step_written (w : CodeWriter) (step : LayoutStep) :
    (w.step step).depth = step.depthAfter w.depth ∧
      (w.step step).written.toList = w.written.toList ++
        step.contents.flatMap fun content =>
          indented (step.lineDepth w.depth) content ++ ['\n'] := by
  cases step with
  | line text =>
    rw [LayoutStep.contents, List.flatMap_singleton]
    exact ⟨rfl, w.writeLine_written text⟩
  | blank =>
    rw [LayoutStep.contents, List.flatMap_singleton]
    exact ⟨rfl, w.writeLine_written ""⟩
  | block text => exact w.foldl_writeLine (lines text.toList)
  | opening text =>
    rw [LayoutStep.contents, List.flatMap_singleton]
    exact ⟨rfl, w.writeLine_written text⟩
  | closing text =>
    rw [LayoutStep.contents, List.flatMap_singleton]
    exact ⟨rfl, writeLine_written { w with depth := w.depth - 1 } text⟩

theorem run_written (w : CodeWriter) (steps : List LayoutStep) :
    (w.run steps).written.toList = w.written.toList ++
      (placedLines w.depth steps).flatMap fun placed => indented placed.1 placed.2 ++ ['\n'] := by
  induction steps generalizing w with
  | nil => simp [run, placedLines]
  | cons step rest ih =>
    obtain ⟨hdepth, hwritten⟩ := w.step_written step
    change ((w.step step).run rest).written.toList = _
    rw [ih, hdepth, hwritten, placedLines, List.flatMap_append, List.flatMap_map,
      List.append_assoc]

theorem run_append (w : CodeWriter) (steps more : List LayoutStep) :
    w.run (steps ++ more) = (w.run steps).run more :=
  List.foldl_append

theorem depth_run_of_flat {steps : List LayoutStep} (h : ∀ step ∈ steps, step.IsFlat)
    (w : CodeWriter) : (w.run steps).depth = w.depth := by
  induction steps generalizing w with
  | nil => rfl
  | cons step rest ih =>
    obtain ⟨hstep, hrest⟩ := List.forall_mem_cons.mp h
    change ((w.step step).run rest).depth = _
    rw [ih hrest, (w.step_written step).1, hstep.depthAfter_eq]

theorem exists_written_run (w : CodeWriter) (steps : List LayoutStep) :
    ∃ rest, (w.run steps).written = w.written ++ rest := by
  refine ⟨String.ofList ((placedLines w.depth steps).flatMap fun placed =>
    indented placed.1 placed.2 ++ ['\n']), ?_⟩
  apply String.toList_injective
  rw [run_written, String.toList_append, String.toList_ofList]

end CodeWriter

theorem toList_layoutText (steps : List LayoutStep) :
    (layoutText steps).toList =
      ((placedLines 0 steps).map fun placed => CodeWriter.indented placed.1 placed.2).flatMap
        (· ++ ['\n']) := by
  rw [List.flatMap_map]
  exact (CodeWriter.atDepth 0).run_written steps

theorem exists_layoutText_append (steps more : List LayoutStep) :
    ∃ rest, layoutText (steps ++ more) = layoutText steps ++ rest := by
  rw [layoutText, CodeWriter.run_append]
  exact CodeWriter.exists_written_run _ more

section

variable {steps : List LayoutStep}

/-- The lines of a text that is laid out. -/
theorem lines_layoutText (h : ∀ step ∈ steps, step.IsWhole) :
    lines (layoutText steps).toList =
      (placedLines 0 steps).map fun placed =>
        withoutReturn (CodeWriter.indented placed.1 placed.2) := by
  have hwhole : ∀ line ∈ (placedLines 0 steps).map fun placed =>
      CodeWriter.indented placed.1 placed.2, '\n' ∉ line := by
    intro line hline
    obtain ⟨placed, hplaced, rfl⟩ := List.mem_map.mp hline
    have hcontent : placed.2 ∈ steps.flatMap (·.contents) := by
      rw [← placedLines_snd 0 steps]
      exact List.mem_map_of_mem hplaced
    obtain ⟨step, hstep, hmem⟩ := List.mem_flatMap.mp hcontent
    exact CodeWriter.notMem_indented (h step hstep _ hmem) _
  rw [toList_layoutText, ← List.append_nil (List.flatMap _ _), lines_flatMap hwhole, List.map_map]
  exact List.append_nil _

theorem lines_layoutText_of_flat (h : ∀ step ∈ steps, step.IsWhole)
    (hflat : ∀ step ∈ steps, step.IsFlat) :
    lines (layoutText steps).toList = (steps.flatMap (·.contents)).map withoutReturn := by
  rw [lines_layoutText h, placedLines_of_flat hflat, List.map_map]
  apply List.map_congr_left
  intro content _
  exact congrArg withoutReturn (CodeWriter.indented_zero content)

theorem trim_lines_layoutText (h : ∀ step ∈ steps, step.IsWhole) :
    (lines (layoutText steps).toList).map trim = (steps.flatMap (·.contents)).map trim := by
  rw [lines_layoutText h, ← placedLines_snd 0 steps, List.map_map, List.map_map]
  apply List.map_congr_left
  intro placed _
  exact (trim_withoutReturn _).trans (CodeWriter.trim_indented _ _)

end

end NativeBindings
