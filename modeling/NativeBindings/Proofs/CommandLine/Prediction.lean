import NativeBindings.CommandLine.Command
import NativeBindings.Proofs.Build.Outputs

/-!
# What a check predicts

A check reads files and changes none. What it fails with, a build with the same arguments fails with
too, also without any change. After a check that succeeds, a build prints the same report or fails
in writing its documents.
-/

namespace NativeBindings

open Disk

/-- The result of a command on a disk, and the disk that it leaves. -/
def Disk.command (disk : Disk) (arguments : List String) : CommandResult × Disk :=
  StateT.run (runCommand arguments : DiskRun CommandResult) disk

def CommandResult.ofRun : Except Failure String → CommandResult
  | .ok output => .printed output
  | .error failure => .failed "" failure

/-- What is printed in front of the report if a build writes its documents. -/
def BindingsBuild.written (build : BindingsBuild) : String :=
  "Wrote " ++ build.paths.glueOutput.text ++ "\nWrote " ++ build.paths.bindingOutput.text ++ "\n"

section

variable {m : Type → Type} [Monad m] [FileAccess m]

def FlagFault.failure (fault : FlagFault) : Failure := ⟨fault.message, []⟩

def loadArguments (arguments : List String) : ExceptT Failure m BindingsBuild := do
  let flags ← (ExceptT.mk (pure (FlagPaths.ofArguments arguments))).adapt FlagFault.failure
  flags.loadBuild

end

namespace FlagPaths

theorem onlyReads_loadFrom (path : FilePath) (context : String) :
    OnlyReads (loadFrom path context : ExceptT Failure DiskRun ProjectSettings) := by
  have htext := (OnlyReads.readText path).adapt (SettingsFileFault.unreadable path)
  exact (htext.bind fun text => (OnlyReads.result _).adapt _).adapt _

theorem onlyReads_loadProject (flags : FlagPaths) :
    OnlyReads (flags.loadProject : ExceptT Failure DiskRun ProjectSettings) := by
  unfold loadProject
  cases flags.config with
  | some path => exact onlyReads_loadFrom path _
  | none =>
    have hpresent : OnlyReads (liftM (FileAccess.isPresent defaultConfig : DiskRun Bool) :
        ExceptT Failure DiskRun Bool) :=
      fun _ => rfl
    refine hpresent.bind fun found => ?_
    cases found with
    | true => exact onlyReads_loadFrom defaultConfig _
    | false => exact OnlyReads.result (.ok _)

end FlagPaths

theorem onlyReads_loadArguments (arguments : List String) :
    OnlyReads (loadArguments arguments : ExceptT Failure DiskRun BindingsBuild) := by
  refine ((OnlyReads.result _).adapt _).bind fun flags => ?_
  exact flags.onlyReads_loadProject.bind fun project => OnlyReads.result (.ok _)

theorem runBuild_run (mode : BuildMode) (arguments : List String) (disk : Disk) :
    StateT.run (runBuild mode arguments : DiskRun CommandResult) disk =
      let ended := disk.perform (loadArguments arguments >>= fun build => build.print mode)
      (.ofRun ended.1, ended.2) := by
  have hload : (do
      let flags ← (ExceptT.mk (pure (FlagPaths.ofArguments arguments))).adapt FlagFault.failure
      let build ← flags.loadBuild
      build.print mode : ExceptT Failure DiskRun String) =
        loadArguments arguments >>= fun build => build.print mode := by
    rw [loadArguments, bind_assoc]
  unfold runBuild
  unfold FlagFault.failure at hload
  rw [hload]
  unfold perform ExceptT.run
  simp only [StateT.run_bind]
  generalize StateT.run _ disk = ended
  obtain ⟨result, after⟩ := ended
  cases result <;> rfl

/-- The run fails only in writing at some path. -/
def FailsWriting {α : Type} (run : ExceptT BuildFault DiskRun α) : Prop :=
  ∀ (disk : Disk) (fault : BuildFault) (after : Disk),
    disk.perform run = (.error fault, after) → ∃ path why, fault = .output path why

namespace FailsWriting

variable {α β : Type} {run : ExceptT BuildFault DiskRun α}

theorem bind {next : α → ExceptT BuildFault DiskRun β} (h : FailsWriting run)
    (hnext : ∀ value, FailsWriting (next value)) : FailsWriting (run >>= next) := by
  intro disk fault after hfail
  rcases perform_bind_eq_error hfail with hrun | ⟨value, between, -, hrest⟩
  · exact h disk fault after hrun
  · exact hnext value between fault after hrest

theorem writing (path : FilePath) (operation : ExceptT FileFault DiskRun α) :
    FailsWriting (BindingsBuild.writing path operation) := by
  intro disk fault after hfail
  rw [BindingsBuild.writing, perform_adapt] at hfail
  generalize disk.perform operation = ended at hfail
  obtain ⟨result, left⟩ := ended
  cases result with
  | ok value => cases hfail
  | error why =>
    cases hfail
    exact ⟨path, why, rfl⟩

theorem pure (value : α) : FailsWriting (Pure.pure value : ExceptT BuildFault DiskRun α) := by
  intro disk fault after hfail
  cases hfail

theorem throw (path : FilePath) (why : FileFault) :
    FailsWriting (MonadExcept.throw (BuildFault.output path why) :
      ExceptT BuildFault DiskRun α) := by
  intro disk fault after hfail
  cases hfail
  exact ⟨path, why, rfl⟩

theorem tryCatch {handle : BuildFault → ExceptT BuildFault DiskRun α} (h : FailsWriting run)
    (hhandle : ∀ path why, FailsWriting (handle (.output path why))) :
    FailsWriting (tryCatch run handle) := by
  intro disk fault after hfail
  rw [perform_tryCatch] at hfail
  split at hfail
  · cases hfail
  · rename_i first between hrun
    obtain ⟨path, why, rfl⟩ := h disk first between hrun
    exact hhandle path why between fault after hfail

theorem stage (destination : FilePath) (content : String) :
    FailsWriting (BindingsBuild.stage destination content) := by
  unfold BindingsBuild.stage
  cases destination.parent? with
  | none =>
    dsimp only
    exact writing _ _
  | some parent =>
    dsimp only
    exact (writing _ _).bind fun _ => writing _ _

theorem withdraw (destination : FilePath) : FailsWriting (BindingsBuild.withdraw destination) :=
  (writing _ _).tryCatch fun _ _ => pure ()

theorem stageBoth (build : BindingsBuild) (generated : Generated) :
    FailsWriting (build.stageBoth generated) := by
  refine (stage _ _).bind fun _ => (stage _ _).tryCatch fun path why => ?_
  exact (withdraw _).bind fun _ => throw path why

theorem move (build : BindingsBuild) : FailsWriting build.move :=
  (writing _ _).bind fun _ => writing _ _

end FailsWriting

namespace BindingsBuild

variable {build : BindingsBuild} {disk : Disk}

theorem perform_run_of_error {fault : BuildFault}
    (h : disk.perform build.generate = (.error fault, disk)) :
    disk.perform build.run = (.error fault, disk) := by
  rw [run_eq, prepare, bind_assoc, perform_bind, h]

theorem perform_run_of_ok {generated : Generated}
    (h : disk.perform build.generate = (.ok generated, disk)) :
    ∃ after, disk.perform build.run = (.ok generated.report, after) ∨
      ∃ path why, disk.perform build.run = (.error (.output path why), after) := by
  have hrun : disk.perform build.run = disk.perform
      (build.stageBoth generated >>= fun _ => build.move >>= fun _ =>
        Pure.pure generated.report) := by
    rw [run_eq, prepare, bind_assoc, perform_bind, h]
    simp only [bind_assoc, pure_bind]
  have hfails : FailsWriting (build.stageBoth generated >>= fun _ => build.move >>= fun _ =>
      Pure.pure generated.report) :=
    (FailsWriting.stageBoth build generated).bind fun _ =>
      (FailsWriting.move build).bind fun _ => FailsWriting.pure _
  rw [hrun]
  cases hended : disk.perform (build.stageBoth generated >>= fun _ => build.move >>= fun _ =>
    Pure.pure generated.report) with
  | mk result after =>
    refine ⟨after, ?_⟩
    cases result with
    | error fault =>
      obtain ⟨path, why, rfl⟩ := hfails disk fault after hended
      exact .inr ⟨path, why, rfl⟩
    | ok report =>
      obtain ⟨_, _, -, hmoved⟩ := perform_bind_eq_ok hended
      obtain ⟨_, _, -, hreturn⟩ := perform_bind_eq_ok hmoved
      cases hreturn
      exact .inl rfl

theorem perform_print_check (build : BindingsBuild) (disk : Disk) :
    disk.perform (build.print .check) =
      (((disk.perform build.generate).1.mapError build.failure).map (·.report.text), disk) := by
  unfold print
  rw [perform_bind, perform_adapt, build.onlyReads_generate.perform_eq]
  cases (disk.perform build.generate).1 <;> rfl

theorem perform_print_write (build : BindingsBuild) (disk : Disk) :
    disk.perform (build.print .write) =
      (((disk.perform build.run).1.mapError build.failure).map (build.written ++ ·.text),
        (disk.perform build.run).2) := by
  unfold print
  rw [perform_bind, perform_adapt]
  cases (disk.perform build.run).1 <;> rfl

end BindingsBuild

section

variable {arguments : List String} {disk : Disk}

theorem command_of_error {mode : BuildMode} {failure : Failure}
    (h : disk.perform (loadArguments arguments) = (.error failure, disk)) :
    StateT.run (runBuild mode arguments : DiskRun CommandResult) disk =
      (.failed "" failure, disk) := by
  rw [runBuild_run, perform_bind, h]
  rfl

theorem command_of_ok {mode : BuildMode} {build : BindingsBuild}
    (h : disk.perform (loadArguments arguments) = (.ok build, disk)) :
    StateT.run (runBuild mode arguments : DiskRun CommandResult) disk =
      (.ofRun (disk.perform (build.print mode)).1, (disk.perform (build.print mode)).2) := by
  rw [runBuild_run, perform_bind, h]

end

/-- A check changes nothing on a disk. Either it fails, and a build with the same arguments fails
with the same and changes nothing too; or it prints a report, and the build prints the same report
behind the paths of its documents or fails in writing them. -/
theorem check_predicts_generate (arguments : List String) (disk : Disk) :
    (∃ failure, disk.command ("check" :: arguments) = (.failed "" failure, disk) ∧
      disk.command ("generate" :: arguments) = (.failed "" failure, disk)) ∨
    ∃ build generated, disk.perform (loadArguments arguments) = (.ok build, disk) ∧
      disk.perform build.generate = (.ok generated, disk) ∧
      disk.command ("check" :: arguments) = (.printed generated.report.text, disk) ∧
      ∃ after, disk.command ("generate" :: arguments) =
            (.printed (build.written ++ generated.report.text), after) ∨
          ∃ path why, disk.command ("generate" :: arguments) =
            (.failed "" (build.failure (.output path why)), after) := by
  -- Both commands load the same build before they part, and nothing is written up to there.
  have hload := (onlyReads_loadArguments arguments).perform_eq disk
  cases hloaded : (disk.perform (loadArguments arguments)).1 with
  | error failure =>
    rw [hloaded] at hload
    exact .inl ⟨failure, command_of_error hload, command_of_error hload⟩
  | ok build =>
    rw [hloaded] at hload
    have hcheck : disk.command ("check" :: arguments) = _ := command_of_ok hload
    have hbuild : disk.command ("generate" :: arguments) = _ := command_of_ok hload
    rw [BindingsBuild.perform_print_check] at hcheck
    rw [BindingsBuild.perform_print_write] at hbuild
    -- The build generates once more what the check has, and then writes it.
    have hgenerate := build.onlyReads_generate.perform_eq disk
    cases hmade : (disk.perform build.generate).1 with
    | error fault =>
      rw [hmade] at hgenerate hcheck
      rw [BindingsBuild.perform_run_of_error hgenerate] at hbuild
      exact .inl ⟨build.failure fault, hcheck, hbuild⟩
    | ok generated =>
      rw [hmade] at hgenerate hcheck
      refine .inr ⟨build, generated, hload, hgenerate, hcheck, ?_⟩
      obtain ⟨after, hrun | ⟨path, why, hrun⟩⟩ := BindingsBuild.perform_run_of_ok hgenerate
      · rw [hrun] at hbuild
        exact ⟨after, .inl hbuild⟩
      · rw [hrun] at hbuild
        exact ⟨after, .inr ⟨path, why, hbuild⟩⟩

end NativeBindings
