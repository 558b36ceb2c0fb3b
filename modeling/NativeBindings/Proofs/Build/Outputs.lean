import NativeBindings.Proofs.Build.Steps
import NativeBindings.Proofs.Generation.Account

/-!
# Outputs of a build

A build stages both documents and then moves both into place. If something fails before the first
move, no file is different, but that none is left where the glue was to be staged. A move that fails
leaves a document behind. If all succeeds, each output holds its document, unless the bindings were
staged where the glue goes: then the glue replaces them and is moved on to their output.
-/

namespace NativeBindings

open Disk

namespace BindingsBuild

section

variable {m : Type → Type} [Monad m] [FileAccess m]

/-- Stages the bindings, and takes the glue back if this fails. -/
def stageBindings (build : BindingsBuild) (generated : Generated) : ExceptT BuildFault m Unit :=
  tryCatch (stage build.paths.bindingOutput generated.bindings.text) fun fault => do
    withdraw build.paths.glueOutput
    throw fault

def stageBoth (build : BindingsBuild) (generated : Generated) : ExceptT BuildFault m Unit := do
  stage build.paths.glueOutput generated.glue.text
  build.stageBindings generated

def prepare (build : BindingsBuild) : ExceptT BuildFault m Generated := do
  let generated ← build.generate
  build.stageBoth generated
  return generated

def move (build : BindingsBuild) : ExceptT BuildFault m Unit := do
  commit build.paths.glueOutput
  commit build.paths.bindingOutput

end

theorem run_eq (build : BindingsBuild) :
    (build.run : ExceptT BuildFault DiskRun GenerationReport) = do
      let generated ← build.prepare
      build.move
      return generated.report := by
  simp only [run, prepare, stageBoth, stageBindings, move, bind_assoc, pure_bind]

section

variable {build : BindingsBuild} {disk staged after : Disk} {generated : Generated}
  {fault : BuildFault}

/-- Both documents are staged; of two that are staged at one place, the bindings are there. -/
structure Staged (build : BindingsBuild) (generated : Generated) (disk staged : Disk) : Prop where
  keeps : KeepsDirectories disk staged
  glue : disk.place build.paths.glueOutput.stage ≠ disk.place build.paths.bindingOutput.stage →
    staged.lookup? (disk.place build.paths.glueOutput.stage) =
      some (.file generated.glue.text.toUTF8)
  bindings : staged.lookup? (disk.place build.paths.bindingOutput.stage) =
    some (.file generated.bindings.text.toUTF8)

theorem stageBindings_eq_ok
    (h : disk.perform (build.stageBindings generated) = (.ok (), after)) :
    disk.perform (stage build.paths.bindingOutput generated.bindings.text) = (.ok (), after) := by
  rw [stageBindings, perform_tryCatch] at h
  split at h
  · rename_i between hstage
    cases h
    exact hstage
  · obtain ⟨⟨⟩, _, -, hthrow⟩ := perform_bind_eq_ok h
    cases hthrow

theorem staged_of_stageBoth_eq_ok
    (h : disk.perform (build.stageBoth generated) = (.ok (), staged)) :
    build.Staged generated disk staged := by
  obtain ⟨⟨⟩, first, hfirst, hsecond⟩ := perform_bind_eq_ok h
  have hglue := stages_of_stage_eq_ok hfirst
  have hbindings := stages_of_stage_eq_ok (stageBindings_eq_ok hsecond)
  have hfile := hbindings.file
  have hentry := hbindings.entry
  rw [hglue.keeps.place_eq] at hfile hentry
  exact ⟨hglue.keeps.trans hbindings.keeps,
    fun hne => (hentry _ hne).lookup?_eq_some hglue.file, hfile⟩

theorem stageBindings_eq_error {content : String} {first : Disk}
    (hglue : Stages build.paths.glueOutput content disk first)
    (h : first.perform (build.stageBindings generated) = (.error fault, after)) (place : Place) :
    OnlyMade disk after place ∨
      place = disk.place build.paths.glueOutput.stage ∧ after.lookup? place = none := by
  rw [stageBindings, perform_tryCatch] at h
  split at h
  · cases h
  · rename_i failed between hstage
    have hadds := stage_eq_error hstage
    have hkeeps := hadds.keepsDirectories
    have hplace : between.place build.paths.glueOutput.stage =
        disk.place build.paths.glueOutput.stage := by
      rw [hkeeps.place_eq, hglue.keeps.place_eq]
    have hfile : between.lookup? (between.place build.paths.glueOutput.stage) =
        some (.file content.toUTF8) := by
      rw [hplace]
      exact (hadds.entry _).lookup?_eq_some hglue.file
    have hpath := hglue.isFilePath.of_keepsDirectories hkeeps
      (by rw [← hkeeps.place_eq, hfile]; simp)
    have hwithdraw := perform_withdraw hpath hfile
    have hlookup := lookup?_clear between hpath.named.place_ne_nil place
    rw [hplace] at hlookup hwithdraw
    have hafter : after = between.clear (disk.place build.paths.glueOutput.stage) := by
      rcases perform_bind_eq_error h with hfailed | ⟨⟨⟩, cleared, hcleared, hthrow⟩
      · rw [hwithdraw] at hfailed
        cases hfailed
      · rw [hwithdraw] at hcleared
        cases hcleared
        cases hthrow
        rfl
    rw [hafter]
    by_cases hp : place = disk.place build.paths.glueOutput.stage
    · rw [if_pos hp] at hlookup
      exact .inr ⟨hp, hlookup⟩
    · rw [if_neg hp] at hlookup
      left
      rw [OnlyMade, hlookup]
      exact (hglue.entry place hp).trans (hadds.entry place)

theorem prepare_eq_ok (h : disk.perform build.prepare = (.ok generated, staged)) :
    disk.perform build.generate = (.ok generated, disk) ∧ build.Staged generated disk staged := by
  obtain ⟨made, same, hgenerate, hrest⟩ := perform_bind_eq_ok h
  obtain rfl := generate_eq_ok hgenerate
  obtain ⟨_, between, hboth, hreturn⟩ := perform_bind_eq_ok hrest
  cases hreturn
  exact ⟨hgenerate, staged_of_stageBoth_eq_ok hboth⟩

/-- If preparing fails, nothing is different but that directories were made, and that nothing is
left where the glue was to be staged. -/
theorem prepare_eq_error (h : disk.perform build.prepare = (.error fault, after)) (place : Place) :
    OnlyMade disk after place ∨
      place = disk.place build.paths.glueOutput.stage ∧ after.lookup? place = none := by
  rcases perform_bind_eq_error h with hgenerate | ⟨made, same, hgenerate, hrest⟩
  · have hdisk := build.onlyReads_generate disk
    rw [hgenerate] at hdisk
    change after = disk at hdisk
    rw [hdisk]
    exact .inl (.inl rfl)
  · obtain rfl := generate_eq_ok hgenerate
    rcases perform_bind_eq_error hrest with hboth | ⟨_, between, -, hreturn⟩
    · rcases perform_bind_eq_error hboth with hfirst | ⟨⟨⟩, first, hfirst, hsecond⟩
      · exact .inl ((stage_eq_error hfirst).entry place)
      · exact stageBindings_eq_error (stages_of_stage_eq_ok hfirst) hsecond place
    · cases hreturn

theorem move_eq_ok (h : staged.perform build.move = (.ok (), after)) :
    ∃ between : Disk,
      staged.moveFile build.paths.glueOutput.stage build.paths.glueOutput = .ok between ∧
      between.moveFile build.paths.bindingOutput.stage build.paths.bindingOutput = .ok after := by
  obtain ⟨⟨⟩, between, hfirst, hsecond⟩ := perform_bind_eq_ok h
  exact ⟨between, commit_eq_ok hfirst, commit_eq_ok hsecond⟩

theorem move_eq_error (h : staged.perform build.move = (.error fault, after)) :
    after = staged ∨
      staged.moveFile build.paths.glueOutput.stage build.paths.glueOutput = .ok after := by
  rcases perform_bind_eq_error h with hfirst | ⟨⟨⟩, between, hfirst, hsecond⟩
  · exact .inl (commit_eq_error hfirst)
  · obtain rfl := commit_eq_error hsecond
    exact .inr (commit_eq_ok hfirst)

/-- A document of a build is left where one was staged or where the glue goes. -/
def Leaves (build : BindingsBuild) (generated : Generated) (before after : Disk) : Prop :=
  ∃ path ∈ [build.paths.glueOutput.stage, build.paths.bindingOutput.stage, build.paths.glueOutput],
    ∃ text ∈ [generated.glue.text, generated.bindings.text],
      after.file? (before.place path) = some text.toUTF8

theorem leaves_of_move_eq_error (hstaged : build.Staged generated disk staged)
    (h : staged.perform build.move = (.error fault, after)) :
    build.Leaves generated disk after := by
  rcases move_eq_error h with rfl | hmove
  · exact ⟨build.paths.bindingOutput.stage, by simp, generated.bindings.text, by simp,
      file?_eq_some_iff.mpr hstaged.bindings⟩
  · obtain ⟨content, hmoves⟩ := moves_of_moveFile_eq_ok hmove
    have hcontent := hmoves.file
    have hmoved := hmoves.lookup?_eq (staged.place build.paths.glueOutput)
    rw [if_pos rfl, hstaged.keeps.place_eq] at hmoved
    rw [hstaged.keeps.place_eq] at hcontent
    refine ⟨build.paths.glueOutput, by simp, ?_⟩
    by_cases hstage : disk.place build.paths.glueOutput.stage =
        disk.place build.paths.bindingOutput.stage
    · rw [hstage, hstaged.bindings] at hcontent
      cases hcontent
      exact ⟨generated.bindings.text, by simp, file?_eq_some_iff.mpr hmoved⟩
    · rw [hstaged.glue hstage] at hcontent
      cases hcontent
      exact ⟨generated.glue.text, by simp, file?_eq_some_iff.mpr hmoved⟩

/-- A build left nothing behind but directories. Nothing is left either where the glue was to be
staged, should there have been a file before. -/
structure Undone (build : BindingsBuild) (before after : Disk) : Prop where
  glueOutput : after.file? (before.place build.paths.glueOutput) =
    before.file? (before.place build.paths.glueOutput)
  bindingOutput :
    before.place build.paths.bindingOutput ≠ before.place build.paths.glueOutput.stage →
      after.file? (before.place build.paths.bindingOutput) =
        before.file? (before.place build.paths.bindingOutput)
  stages : ∀ path ∈ [build.paths.glueOutput, build.paths.bindingOutput],
    after.file? (before.place path.stage) = before.file? (before.place path.stage) ∨
      after.file? (before.place path.stage) = none
  elsewhere : ∀ place, place ≠ before.place build.paths.glueOutput.stage →
    OnlyMade before after place

theorem undone_of_prepare_eq_error (h : disk.perform build.prepare = (.error fault, after)) :
    build.Undone disk after := by
  have hplaces := prepare_eq_error h
  have helse : ∀ place, place ≠ disk.place build.paths.glueOutput.stage →
      OnlyMade disk after place := fun place hne =>
    (hplaces place).resolve_right fun hleft => hne hleft.1
  have hglue : disk.place build.paths.glueOutput ≠ disk.place build.paths.glueOutput.stage :=
    (FilePath.place_stage_ne build.paths.glueOutput disk.workingDirectory).symm
  refine ⟨(helse _ hglue).file?_eq, fun hne => (helse _ hne).file?_eq, ?_, helse⟩
  intro path _
  rcases hplaces (disk.place path.stage) with honly | ⟨-, hnone⟩
  · exact .inl honly.file?_eq
  · right
    rw [file?, hnone]

/-- A build that fails before anything is moved into place leaves nothing behind. One that fails in
moving leaves a document behind. -/
theorem failed_build_undone (h : disk.perform build.run = (.error fault, after)) :
    (disk.perform build.prepare = (.error fault, after) ∧ build.Undone disk after) ∨
      ∃ generated staged, disk.perform build.prepare = (.ok generated, staged) ∧
        staged.perform build.move = (.error fault, after) ∧
        build.Leaves generated disk after := by
  rw [run_eq] at h
  rcases perform_bind_eq_error h with hprepare | ⟨generated, staged, hprepare, hrest⟩
  · exact .inl ⟨hprepare, undone_of_prepare_eq_error hprepare⟩
  · rcases perform_bind_eq_error hrest with hmove | ⟨_, _, -, hreturn⟩
    · obtain ⟨-, hstaged⟩ := prepare_eq_ok hprepare
      exact .inr ⟨generated, staged, hprepare, hmove, leaves_of_move_eq_error hstaged hmove⟩
    · cases hreturn

def sample (glue bindings : String) : BindingsBuild :=
  { ofGenerator .default with
    paths := { ProjectPaths.default with glueOutput := ⟨glue⟩, bindingOutput := ⟨bindings⟩ }
    declarations := .header fun _ _ => .ok .colliding }

def sampleDisk (name : String) : Disk :=
  ⟨[(["out"], .directory), ([name, "out"], .directory)], []⟩

theorem failed_build_undone_blocked :
    ∃ fault after, (sampleDisk "b.cs.tmp").perform (sample "out/g.cpp" "out/b.cs").run =
        (.error fault, after) ∧
      (sample "out/g.cpp" "out/b.cs").Undone (sampleDisk "b.cs.tmp") after := by
  have hfails : ((sampleDisk "b.cs.tmp").perform
      (sample "out/g.cpp" "out/b.cs").prepare).1.toBool = false := by decide +kernel
  cases h : (sampleDisk "b.cs.tmp").perform (sample "out/g.cpp" "out/b.cs").run with
  | mk result after =>
    cases result with
    | ok report =>
      have hrun : ((sampleDisk "b.cs.tmp").perform
          (sample "out/g.cpp" "out/b.cs").run).1.toBool = false := by decide +kernel
      rw [h] at hrun
      cases hrun
    | error fault =>
      rcases failed_build_undone h with ⟨-, hundone⟩ | ⟨generated, staged, hprepare, -⟩
      · exact ⟨fault, after, rfl, hundone⟩
      · rw [hprepare] at hfails
        cases hfails

/-- The bindings cannot replace a directory, but the glue was moved before that. -/
theorem failed_move_leaves_both :
    ∃ fault after, (sampleDisk "b.cs").perform (sample "out/g.cpp" "out/b.cs").run =
        (.error fault, after) ∧
      (sampleDisk "b.cs").isPresent ⟨"out/g.cpp"⟩ = false ∧
      after.isPresent ⟨"out/g.cpp"⟩ = true ∧
      (sampleDisk "b.cs").isPresent ⟨"out/b.cs.tmp"⟩ = false ∧
      after.isPresent ⟨"out/b.cs.tmp"⟩ = true := by
  have hrun : ((sampleDisk "b.cs").perform
      (sample "out/g.cpp" "out/b.cs").run).1.toBool = false := by decide +kernel
  have hglue : ((sampleDisk "b.cs").perform
      (sample "out/g.cpp" "out/b.cs").run).2.isPresent ⟨"out/g.cpp"⟩ = true := by decide +kernel
  have hbindings : ((sampleDisk "b.cs").perform
      (sample "out/g.cpp" "out/b.cs").run).2.isPresent ⟨"out/b.cs.tmp"⟩ = true := by
    decide +kernel
  cases h : (sampleDisk "b.cs").perform (sample "out/g.cpp" "out/b.cs").run with
  | mk result after =>
    rw [h] at hrun hglue hbindings
    cases result with
    | ok report => cases hrun
    | error fault =>
      exact ⟨fault, after, rfl, by decide +kernel, hglue, by decide +kernel, hbindings⟩

/-- Each output holds its document, and none is left where it was staged, unless the other goes
there. -/
structure Written (build : BindingsBuild) (generated : Generated) (after : Disk) : Prop where
  glue : after.readText build.paths.glueOutput = .ok generated.glue.text
  bindings : after.readText build.paths.bindingOutput = .ok generated.bindings.text
  stages : ∀ path ∈ [build.paths.glueOutput, build.paths.bindingOutput],
    after.place path.stage ≠ after.place build.paths.glueOutput →
      after.place path.stage ≠ after.place build.paths.bindingOutput →
        after.isPresent path.stage = false

/-- The glue is where the bindings should be, and there is nothing where it should be. -/
structure Displaced (build : BindingsBuild) (generated : Generated) (after : Disk) : Prop where
  glue : after.isPresent build.paths.glueOutput = false
  bindings : after.readText build.paths.bindingOutput = .ok generated.glue.text

/-- What both moves leave at the places of the outputs and where these were staged. The bindings
output has what was staged for it, but for glue that was moved there in between. -/
structure Moved (build : BindingsBuild) (generated : Generated) (before after : Disk) : Prop where
  keeps : KeepsDirectories before after
  glueNamed : after.IsNamed build.paths.glueOutput
  glueStageNamed : after.IsNamed build.paths.glueOutput.stage
  bindingNamed : after.IsNamed build.paths.bindingOutput
  bindingStageNamed : after.IsNamed build.paths.bindingOutput.stage
  glue : after.place build.paths.glueOutput ≠ after.place build.paths.bindingOutput.stage →
    after.lookup? (after.place build.paths.glueOutput) = some (.file generated.glue.text.toUTF8)
  glueStage : after.place build.paths.glueOutput.stage ≠ after.place build.paths.bindingOutput →
    after.lookup? (after.place build.paths.glueOutput.stage) = none
  bindings : after.lookup? (after.place build.paths.bindingOutput) = some (.file
    (if after.place build.paths.bindingOutput.stage = after.place build.paths.glueOutput then
      generated.glue.text.toUTF8 else generated.bindings.text.toUTF8))
  bindingStage : after.lookup? (after.place build.paths.bindingOutput.stage) = none

theorem moved_of_move_eq_ok (hstaged : build.Staged generated disk staged)
    (houtputs : disk.place build.paths.glueOutput ≠ disk.place build.paths.bindingOutput)
    (h : staged.perform build.move = (.ok (), after)) : build.Moved generated disk after := by
  obtain ⟨between, hfirst, hsecond⟩ := move_eq_ok h
  obtain ⟨first, hglue⟩ := moves_of_moveFile_eq_ok hfirst
  obtain ⟨second, hbindings⟩ := moves_of_moveFile_eq_ok hsecond
  have hlast := hbindings.keepsDirectories
  have hboth := hglue.keepsDirectories.trans hlast
  have hkeeps := hstaged.keeps.trans hboth
  -- Outputs at two places are staged at two places.
  have hstages : disk.place build.paths.glueOutput.stage ≠
      disk.place build.paths.bindingOutput.stage := by
    obtain ⟨name, hname⟩ := hglue.isDestination.named.exists_fileName?
    obtain ⟨name', hname'⟩ := hbindings.isDestination.named.exists_fileName?
    exact fun heq => houtputs ((FilePath.place_stage_inj hname hname').mp heq)
  have hfile : first = generated.glue.text.toUTF8 := by
    have hcontent := hglue.file
    rw [hstaged.keeps.place_eq, hstaged.glue hstages] at hcontent
    cases hcontent
    rfl
  have hbindingStage := hstaged.bindings
  have hbetween := hglue.lookup?_eq
  have hcontent := hbindings.file
  have hafter := hbindings.lookup?_eq
  simp only [← hkeeps.place_eq] at houtputs hstages hbindingStage
  simp only [← hboth.place_eq, hfile] at hbetween
  simp only [← hlast.place_eq] at hcontent hafter
  have hfile' : second =
      if after.place build.paths.bindingOutput.stage = after.place build.paths.glueOutput then
        generated.glue.text.toUTF8 else generated.bindings.text.toUTF8 := by
    rw [hbetween, if_neg hstages.symm, hbindingStage] at hcontent
    split_ifs at hcontent ⊢
    all_goals
      cases hcontent
      rfl
  have hne : ∀ path : FilePath, after.place path.stage ≠ after.place path := fun path =>
    path.place_stage_ne after.workingDirectory
  constructor
  case keeps => exact hkeeps
  case glueNamed => exact hglue.isDestination.named.of_keepsDirectories hboth
  case glueStageNamed => exact hglue.isSource.named.of_keepsDirectories hboth
  case bindingNamed => exact hbindings.isDestination.named.of_keepsDirectories hlast
  case bindingStageNamed => exact hbindings.isSource.named.of_keepsDirectories hlast
  case glue =>
    intro hdisplaced
    rw [hafter, if_neg houtputs, if_neg hdisplaced, hbetween, if_pos rfl]
  case glueStage =>
    intro hoverwritten
    rw [hafter, if_neg hoverwritten, if_neg hstages, hbetween, if_neg (hne _), if_pos rfl]
  case bindings => rw [hafter, if_pos rfl, hfile']
  case bindingStage => rw [hafter, if_neg (hne _), if_pos rfl]

/-- A build that succeeds and has two outputs writes each document to its output, unless the
bindings are staged where the glue goes. Then the bindings are lost. -/
theorem built_outputs {report : GenerationReport}
    (houtputs : disk.place build.paths.glueOutput ≠ disk.place build.paths.bindingOutput)
    (h : disk.perform build.run = (.ok report, after)) :
    ∃ generated, disk.perform build.generate = (.ok generated, disk) ∧
      report = generated.report ∧
      (disk.place build.paths.glueOutput ≠ disk.place build.paths.bindingOutput.stage →
        build.Written generated after) ∧
      (disk.place build.paths.glueOutput = disk.place build.paths.bindingOutput.stage →
        build.Displaced generated after) := by
  rw [run_eq] at h
  obtain ⟨generated, staged, hprepare, hrest⟩ := perform_bind_eq_ok h
  obtain ⟨_, _, hmove, hreturn⟩ := perform_bind_eq_ok hrest
  cases hreturn
  obtain ⟨hgenerate, hstaged⟩ := prepare_eq_ok hprepare
  have hmoved := moved_of_move_eq_ok hstaged houtputs hmove
  have hbindings := hmoved.bindings
  refine ⟨generated, hgenerate, rfl, fun hne => ?_, fun heq => ?_⟩
  · rw [← hmoved.keeps.place_eq, ← hmoved.keeps.place_eq] at hne
    rw [if_neg hne.symm] at hbindings
    constructor
    case glue => exact readText_eq_ok hmoved.glueNamed (hmoved.glue hne)
    case bindings => exact readText_eq_ok hmoved.bindingNamed hbindings
    case stages =>
      intro path hpath hglue hbinding
      simp only [List.mem_cons, List.not_mem_nil, or_false] at hpath
      rcases hpath with rfl | rfl
      · exact isPresent_eq_false hmoved.glueStageNamed (hmoved.glueStage hbinding)
      · exact isPresent_eq_false hmoved.bindingStageNamed hmoved.bindingStage
  · rw [← hmoved.keeps.place_eq, ← hmoved.keeps.place_eq] at heq
    rw [if_pos heq.symm] at hbindings
    constructor
    case glue =>
      apply isPresent_eq_false hmoved.glueNamed
      rw [heq, hmoved.bindingStage]
    case bindings => exact readText_eq_ok hmoved.bindingNamed hbindings

theorem built_outputs_apart :
    ∃ generated after, (sampleDisk "in").perform (sample "out/g.cpp" "out/b.cs").run =
        (.ok generated.report, after) ∧
      (sample "out/g.cpp" "out/b.cs").Written generated after := by
  have houtputs : (sampleDisk "in").place ⟨"out/g.cpp"⟩ ≠ (sampleDisk "in").place ⟨"out/b.cs"⟩ := by
    decide +kernel
  have hstage : (sampleDisk "in").place ⟨"out/g.cpp"⟩ ≠
      (sampleDisk "in").place (FilePath.mk "out/b.cs").stage := by decide +kernel
  have hrun : ((sampleDisk "in").perform
      (sample "out/g.cpp" "out/b.cs").run).1.toBool = true := by decide +kernel
  cases h : (sampleDisk "in").perform (sample "out/g.cpp" "out/b.cs").run with
  | mk result after =>
    cases result with
    | error fault =>
      rw [h] at hrun
      cases hrun
    | ok report =>
      obtain ⟨generated, -, rfl, hwritten, -⟩ := built_outputs houtputs h
      exact ⟨generated, after, rfl, hwritten hstage⟩

/-- The bindings for `out/x` are staged at `out/x.tmp`, over the glue. -/
theorem glue_over_bindings :
    (sampleDisk "in").place ⟨"out/x.tmp"⟩ ≠ (sampleDisk "in").place ⟨"out/x"⟩ ∧
      ∃ report after, (sampleDisk "in").perform (sample "out/x.tmp" "out/x").run =
          (.ok report, after) ∧
        after.isPresent ⟨"out/x.tmp"⟩ = false := by
  have hrun : ((sampleDisk "in").perform
      (sample "out/x.tmp" "out/x").run).1.toBool = true := by decide +kernel
  have hglue : ((sampleDisk "in").perform
      (sample "out/x.tmp" "out/x").run).2.isPresent ⟨"out/x.tmp"⟩ = false := by decide +kernel
  refine ⟨by decide +kernel, ?_⟩
  cases h : (sampleDisk "in").perform (sample "out/x.tmp" "out/x").run with
  | mk result after =>
    rw [h] at hrun hglue
    cases result with
    | error fault => cases hrun
    | ok report => exact ⟨report, after, rfl, hglue⟩

end

end BindingsBuild

end NativeBindings
