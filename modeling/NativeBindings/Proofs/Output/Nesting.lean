import NativeBindings.Proofs.Output.Layout

/-!
# Nested layouts

A text that was laid out can be laid out once more, as one block in another text. The result is as
if its steps had been taken there, as long as they close no level that they have not opened, and
every line that they write is one line without a carriage return at its end.
-/

namespace NativeBindings

open Text

namespace LayoutStep

def isOpening : LayoutStep → Bool
  | .opening _ => true
  | _ => false

def isClosing : LayoutStep → Bool
  | .closing _ => true
  | _ => false

/-- What is written as one line is read as this line again. -/
def IsClean (step : LayoutStep) : Prop :=
  ∀ content ∈ step.contents, '\n' ∉ content ∧ content.getLast? ≠ some '\r'

instance : DecidablePred IsClean := fun step =>
  inferInstanceAs (Decidable (∀ content ∈ step.contents, _))

theorem IsClean.isWhole {step : LayoutStep} (h : step.IsClean) : step.IsWhole :=
  fun content hc => (h content hc).1

section

variable {step : LayoutStep} {depth : Nat} (h : step.isClosing = true → 0 < depth) (outer : Nat)

include h

theorem lineDepth_add : step.lineDepth (outer + depth) = outer + step.lineDepth depth := by
  cases step with
  | closing text =>
    have hpos : 0 < depth := h rfl
    simp only [lineDepth]
    omega
  | line | blank | block | opening => rfl

theorem depthAfter_add : step.depthAfter (outer + depth) = outer + step.depthAfter depth := by
  cases step with
  | closing text =>
    have hpos : 0 < depth := h rfl
    simp only [depthAfter]
    omega
  | line | blank | block | opening => rfl

end

end LayoutStep

/-- However far the steps are taken, at most so many more levels are closed than opened. -/
def ClosesWithin (depth : Nat) (steps : List LayoutStep) : Prop :=
  ∀ front, front <+: steps → front.countP (·.isClosing) ≤ depth + front.countP (·.isOpening)

def endDepth (depth : Nat) (steps : List LayoutStep) : Nat :=
  steps.foldl (fun depth step => step.depthAfter depth) depth

section

variable {steps more : List LayoutStep} {step : LayoutStep} {depth : Nat}

@[simp] theorem closesWithin_nil : ClosesWithin depth [] := by
  intro front h
  simp [List.prefix_nil.mp h]

@[simp] theorem closesWithin_cons :
    ClosesWithin depth (step :: steps) ↔
      (step.isClosing = true → 0 < depth) ∧ ClosesWithin (step.depthAfter depth) steps := by
  constructor
  · intro h
    have hstep : step.isClosing = true → 0 < depth := by
      intro hclosing
      have hone := h [step] (List.prefix_append [step] steps)
      cases step <;> simp_all [LayoutStep.isClosing, LayoutStep.isOpening]
      omega
    refine ⟨hstep, ?_⟩
    intro front hfront
    have hcons := h (step :: front) ((List.prefix_cons_inj step).mpr hfront)
    cases step <;>
      simp [LayoutStep.isClosing, LayoutStep.isOpening, LayoutStep.depthAfter] at hcons hstep ⊢ <;>
      omega
  · rintro ⟨hstep, hrest⟩ front hfront
    rcases List.prefix_cons_iff.mp hfront with rfl | ⟨rest, rfl, hprefix⟩
    · simp
    · have hfewer := hrest rest hprefix
      cases step <;>
        simp [LayoutStep.isClosing, LayoutStep.isOpening, LayoutStep.depthAfter]
          at hfewer hstep ⊢ <;>
        omega

@[simp] theorem endDepth_nil : endDepth depth [] = depth := rfl

@[simp] theorem endDepth_cons :
    endDepth depth (step :: steps) = endDepth (step.depthAfter depth) steps := rfl

@[simp] theorem endDepth_append :
    endDepth depth (steps ++ more) = endDepth (endDepth depth steps) more :=
  List.foldl_append

@[simp] theorem closesWithin_append :
    ClosesWithin depth (steps ++ more) ↔
      ClosesWithin depth steps ∧ ClosesWithin (endDepth depth steps) more := by
  induction steps generalizing depth with
  | nil => simp
  | cons step steps ih => simp [ih, and_assoc]

theorem endDepth_of_flat (h : ∀ step ∈ steps, step.IsFlat) : endDepth depth steps = depth := by
  induction steps with
  | nil => rfl
  | cons step steps ih =>
    obtain ⟨hstep, hrest⟩ := List.forall_mem_cons.mp h
    rw [endDepth_cons, hstep.depthAfter_eq, ih hrest]

theorem closesWithin_of_flat (h : ∀ step ∈ steps, step.IsFlat) : ClosesWithin depth steps := by
  induction steps with
  | nil => exact closesWithin_nil
  | cons step steps ih =>
    obtain ⟨hstep, hrest⟩ := List.forall_mem_cons.mp h
    rw [closesWithin_cons, hstep.depthAfter_eq]
    refine ⟨?_, ih hrest⟩
    intro hclosing
    cases step <;> simp_all [LayoutStep.isClosing, LayoutStep.IsFlat]

theorem placedLines_append (depth : Nat) (steps more : List LayoutStep) :
    placedLines depth (steps ++ more) =
      placedLines depth steps ++ placedLines (endDepth depth steps) more := by
  induction steps generalizing depth with
  | nil => rfl
  | cons step steps ih =>
    rw [List.cons_append, placedLines, placedLines, ih, endDepth_cons, List.append_assoc]

def writtenLines (depth : Nat) (steps : List LayoutStep) : List (List Char) :=
  (placedLines depth steps).map fun placed => CodeWriter.indented placed.1 placed.2

theorem writtenLines_append (depth : Nat) (steps more : List LayoutStep) :
    writtenLines depth (steps ++ more) =
      writtenLines depth steps ++ writtenLines (endDepth depth steps) more := by
  rw [writtenLines, placedLines_append, List.map_append]
  rfl

theorem writtenLines_of_flat (h : ∀ step ∈ steps, step.IsFlat) (depth : Nat) :
    writtenLines depth steps = (steps.flatMap (·.contents)).map (CodeWriter.indented depth) := by
  rw [writtenLines, placedLines_of_flat h, List.map_map]
  rfl

theorem lines_layoutText_eq_flatMap (steps : List LayoutStep) :
    lines (layoutText steps).toList =
      (writtenLines 0 steps).flatMap fun line => lines (line ++ ['\n']) := by
  rw [toList_layoutText, lines_feeds]
  rfl

/-- Steps that close no level from outside are deeper by as much as they start deeper. -/
theorem placedLines_add (h : ClosesWithin depth steps) (outer : Nat) :
    placedLines (outer + depth) steps =
      (placedLines depth steps).map fun placed => (outer + placed.1, placed.2) := by
  induction steps generalizing depth with
  | nil => rfl
  | cons step steps ih =>
    obtain ⟨hstep, hrest⟩ := closesWithin_cons.mp h
    rw [placedLines, placedLines, LayoutStep.lineDepth_add hstep, LayoutStep.depthAfter_add hstep,
      ih hrest, List.map_append, List.map_map]
    rfl

theorem endDepth_add (h : ClosesWithin depth steps) (outer : Nat) :
    endDepth (outer + depth) steps = outer + endDepth depth steps := by
  induction steps generalizing depth with
  | nil => rfl
  | cons step steps ih =>
    obtain ⟨hstep, hrest⟩ := closesWithin_cons.mp h
    rw [endDepth_cons, LayoutStep.depthAfter_add hstep, ih hrest, endDepth_cons]

end

namespace CodeWriter

theorem depth_run (w : CodeWriter) (steps : List LayoutStep) :
    (w.run steps).depth = endDepth w.depth steps := by
  induction steps generalizing w with
  | nil => rfl
  | cons step steps ih =>
    change ((w.step step).run steps).depth = _
    rw [ih, (w.step_written step).1, endDepth_cons]

theorem run_singleton (w : CodeWriter) (step : LayoutStep) : w.run [step] = w.step step := rfl

theorem indented_indented (outer depth : Nat) (content : List Char) :
    indented outer (indented depth content) = indented (outer + depth) content := by
  by_cases h : content = []
  · simp [indented, h]
  · have hspaces : List.replicate (4 * outer) ' ' ++ List.replicate (4 * depth) ' ' =
        List.replicate (4 * (outer + depth)) ' ' := by
      rw [List.replicate_append_replicate, Nat.mul_add]
    have hne : List.replicate (4 * depth) ' ' ++ content ≠ [] := by simp [h]
    rw [indented, indented, indented, if_neg h, if_neg h, if_neg hne, ← List.append_assoc, hspaces]

theorem getLast?_indented {content : List Char} (h : content.getLast? ≠ some '\r') (depth : Nat) :
    (indented depth content).getLast? ≠ some '\r' := by
  rw [indented]
  split
  · simp
  · rename_i hne
    rwa [List.getLast?_append_of_ne_nil _ hne]

end CodeWriter

section

variable {steps : List LayoutStep} (h : ∀ step ∈ steps, step.IsClean)

include h

theorem lines_layoutText_of_clean :
    lines (layoutText steps).toList = writtenLines 0 steps := by
  rw [lines_layoutText fun step hs => (h step hs).isWhole, writtenLines]
  apply List.map_congr_left
  intro placed hplaced
  have hcontent : placed.2 ∈ steps.flatMap (·.contents) := by
    rw [← placedLines_snd 0 steps]
    exact List.mem_map_of_mem hplaced
  obtain ⟨step, hstep, hmem⟩ := List.mem_flatMap.mp hcontent
  exact withoutReturn_of_getLast? (CodeWriter.getLast?_indented (h step hstep _ hmem).2 _)

/-- Laying a text out once more writes what its steps would write there. -/
theorem CodeWriter.written_block_layoutText (hdepth : ClosesWithin 0 steps) (w : CodeWriter) :
    (w.step (.block (layoutText steps))).written = (w.run steps).written := by
  have hplaced : placedLines w.depth steps = _ := placedLines_add hdepth w.depth
  apply String.toList_injective
  rw [(w.step_written _).2, LayoutStep.contents, lines_layoutText_of_clean h, writtenLines,
    run_written, hplaced, List.flatMap_map, List.flatMap_map]
  simp only [LayoutStep.lineDepth, indented_indented]

theorem CodeWriter.run_block_layoutText (hdepth : ClosesWithin 0 steps)
    (hend : endDepth 0 steps = 0) (w : CodeWriter) :
    w.run [.block (layoutText steps)] = w.run steps := by
  rw [run_singleton]
  have hwritten := written_block_layoutText h hdepth w
  have hsame : (w.step (.block (layoutText steps))).depth = (w.run steps).depth := by
    have hadd : endDepth w.depth steps = _ := endDepth_add hdepth w.depth
    rw [(w.step_written _).1, depth_run, hadd, hend]
    rfl
  generalize w.step (.block (layoutText steps)) = nested at hwritten hsame ⊢
  cases nested
  cases hrun : w.run steps
  simp_all

end

end NativeBindings
